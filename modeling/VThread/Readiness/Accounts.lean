import VThread.Readiness.Reactor

/-!
# What happens to an entry

An accepted entry is in the table until one removal takes it, and a removal that owes a selection
keeps its entries pending until it has made theirs.
-/

namespace VThread.Readiness

open VThread.Lib
open VThread.Wait (WakeCause)

variable {ι : Type}

/-- The selection that a removal owes to the wait of its entry. -/
def Removal.cause : Removal ι → Option WakeCause
  | .event => some .ready
  | .lease => none
  | .close _ => some .closed

/-! ## The table -/

/-- The accepted entries of a table are those that nothing has removed, and nothing is removed
twice. -/
structure Ledger (capacity : Nat) (entries : Entries) (next : Nat)
    (accepted : List (Nat × Entry)) (removals : List (Nat × Removal ι)) : Prop where
  bounded : entries.items.length ≤ capacity
  named : ∀ item ∈ accepted, 1 ≤ item.1 ∧ item.1 < next
  positive : 1 ≤ next
  distinct : (accepted.map Prod.fst).Nodup
  once : (removals.map Prod.fst).Nodup
  covered : ∀ key ∈ removals.map Prod.fst, key ∈ accepted.map Prod.fst
  present : ∀ item, item ∈ entries ↔ item ∈ accepted ∧ item.1 ∉ removals.map Prod.fst

namespace Ledger

variable {capacity next : Nat} {entries : Entries} {accepted : List (Nat × Entry)}
  {removals : List (Nat × Removal ι)}

theorem new (capacity : Nat) :
    Ledger capacity .empty 1 [] ([] : List (Nat × Removal ι)) where
  bounded := Nat.zero_le _
  named := fun _ member => absurd member List.not_mem_nil
  positive := le_refl 1
  distinct := List.nodup_nil
  once := List.nodup_nil
  covered := fun _ member => absurd member List.not_mem_nil
  present item := by
    constructor
    · exact fun member => absurd member (Ordered.not_mem_empty item)
    · exact fun member => absurd member.1 List.not_mem_nil

variable (ledger : Ledger capacity entries next accepted removals)
include ledger

/-- An accepted entry is known by its key. -/
theorem eq_of_key {key : Nat} {entry other : Entry} (isEntry : (key, entry) ∈ accepted)
    (isOther : (key, other) ∈ accepted) : entry = other :=
  congrArg Prod.snd (List.inj_on_of_nodup_map ledger.distinct isEntry isOther rfl)

/-- The next key is new. -/
theorem next_not_mem : next ∉ accepted.map Prod.fst := by
  intro member
  obtain ⟨item, member, same⟩ := List.mem_map.mp member
  have below := (ledger.named item member).2
  omega

theorem register (entry : Entry) (room : entries.items.length ≠ capacity) :
    Ledger capacity (entries.insert (next, entry)) (next + 1) ((next, entry) :: accepted)
      removals where
  bounded := by
    have absent : entries.find? next = none := by
      refine Ordered.find?_eq_none.mpr fun item member same => ledger.next_not_mem ?_
      exact List.mem_map.mpr ⟨item, ((ledger.present item).mp member).1, same⟩
    have grown : (entries.insert (next, entry)).items.length = entries.items.length + 1 :=
      Ordered.length_insert absent
    have bounded := ledger.bounded
    omega
  named := by
    intro item member
    rcases List.mem_cons.mp member with rfl | member
    · exact ⟨ledger.positive, Nat.lt_succ_self next⟩
    · exact ⟨(ledger.named item member).1, Nat.lt_succ_of_lt (ledger.named item member).2⟩
  positive := Nat.le_succ_of_le ledger.positive
  distinct := List.nodup_cons.mpr ⟨ledger.next_not_mem, ledger.distinct⟩
  once := ledger.once
  covered := fun key member => List.mem_cons_of_mem _ (ledger.covered key member)
  present item := by
    rw [Ordered.mem_insert, List.mem_cons, ledger.present]
    constructor
    · rintro (rfl | ⟨⟨member, kept⟩, -⟩)
      · exact ⟨.inl rfl, fun removed => ledger.next_not_mem (ledger.covered next removed)⟩
      · exact ⟨.inr member, kept⟩
    · rintro ⟨rfl | member, kept⟩
      · exact .inl rfl
      · refine .inr ⟨⟨member, kept⟩, ?_⟩
        intro same
        exact absurd (ledger.named item member).2 (by rw [same]; exact Nat.lt_irrefl next)

/-- One entry of the table is removed. -/
theorem remove {item : Nat × Entry} (removal : Removal ι) (member : item ∈ entries) :
    Ledger capacity (entries.erase item.1) next accepted ((item.1, removal) :: removals) where
  bounded := le_trans Ordered.length_erase_le ledger.bounded
  named := ledger.named
  positive := ledger.positive
  distinct := ledger.distinct
  once := List.nodup_cons.mpr ⟨((ledger.present item).mp member).2, ledger.once⟩
  covered := by
    intro key removed
    rcases List.mem_cons.mp removed with rfl | removed
    · exact List.mem_map_of_mem ((ledger.present item).mp member).1
    · exact ledger.covered key removed
  present other := by
    rw [Ordered.mem_erase, ledger.present, List.map_cons, List.mem_cons, not_or, and_assoc]
    exact and_congr_right fun _ => and_comm

/-- All entries of the table are removed. -/
theorem clear (removal : Removal ι) :
    Ledger capacity .empty next accepted
      (entries.items.map (fun item => (item.1, removal)) ++ removals) where
  bounded := Nat.zero_le _
  named := ledger.named
  positive := ledger.positive
  distinct := ledger.distinct
  once := by
    rw [List.map_append, List.map_map]
    refine List.nodup_append.mpr ⟨entries.nodup_keys, ledger.once, ?_⟩
    rintro key removed _ before rfl
    obtain ⟨item, member, rfl⟩ := List.mem_map.mp removed
    exact ((ledger.present item).mp member).2 before
  covered := by
    intro key removed
    rw [List.map_append, List.map_map] at removed
    rcases List.mem_append.mp removed with removed | removed
    · obtain ⟨item, member, rfl⟩ := List.mem_map.mp removed
      exact List.mem_map_of_mem ((ledger.present item).mp member).1
    · exact ledger.covered key removed
  present item := by
    constructor
    · exact fun member => absurd member (Ordered.not_mem_empty item)
    · rintro ⟨member, kept⟩
      rw [List.map_append, List.map_map, List.mem_append, not_or] at kept
      have present : item ∈ entries := (ledger.present item).mpr ⟨member, kept.2⟩
      exact absurd (List.mem_map.mpr ⟨item, present, rfl⟩) kept.1

end Ledger

/-! ## The selections -/

/-- Every selection is owed by the removal of its entry, at most once; what is owed is made or
pending. -/
structure Account (pending : Removal ι → List (Nat × Entry)) (accepted : List (Nat × Entry))
    (removals : List (Nat × Removal ι)) (selections : List Selection) : Prop where
  once : (selections.map Selection.key).Nodup
  owed : ∀ selection ∈ selections, ∃ entry removal, (selection.key, entry) ∈ accepted ∧
    (selection.key, removal) ∈ removals ∧ removal.cause = some selection.cause ∧
      selection = entry.select selection.key selection.cause
  held : ∀ removal, ∀ item ∈ pending removal, item ∈ accepted ∧ (item.1, removal) ∈ removals ∧
    item.1 ∉ selections.map Selection.key
  heldOnce : ∀ removal, ((pending removal).map Prod.fst).Nodup
  settled : ∀ key removal cause, (key, removal) ∈ removals → removal.cause = some cause →
    (∃ selection ∈ selections, selection.key = key ∧ selection.cause = cause) ∨
      key ∈ (pending removal).map Prod.fst

namespace Account

variable {pending pending' : Removal ι → List (Nat × Entry)} {accepted : List (Nat × Entry)}
  {removals : List (Nat × Removal ι)} {selections : List Selection}

theorem new {pending : Removal ι → List (Nat × Entry)}
    (nothing : ∀ removal, pending removal = []) : Account pending [] [] [] where
  once := List.nodup_nil
  owed := fun _ member => absurd member List.not_mem_nil
  held removal item member := by
    rw [nothing] at member
    exact absurd member List.not_mem_nil
  heldOnce removal := by
    rw [nothing]
    exact List.nodup_nil
  settled := fun _ _ _ member => absurd member List.not_mem_nil

variable (account : Account pending accepted removals selections)
include account

theorem accept (item : Nat × Entry) :
    Account pending (item :: accepted) removals selections where
  once := account.once
  owed selection member := by
    obtain ⟨entry, removal, isAccepted, rest⟩ := account.owed selection member
    exact ⟨entry, removal, List.mem_cons_of_mem _ isAccepted, rest⟩
  held removal other member := by
    obtain ⟨isAccepted, rest⟩ := account.held removal other member
    exact ⟨List.mem_cons_of_mem _ isAccepted, rest⟩
  heldOnce := account.heldOnce
  settled := account.settled

theorem removed_of_selected {key : Nat} (selected : key ∈ selections.map Selection.key) :
    key ∈ removals.map Prod.fst := by
  obtain ⟨selection, member, rfl⟩ := List.mem_map.mp selected
  obtain ⟨entry, removal, -, isRemoved, -⟩ := account.owed selection member
  exact List.mem_map_of_mem isRemoved

/-- A removal without pending entries takes entries, and keeps them pending if it owes a
selection. -/
theorem take {removal : Removal ι} {items : List (Nat × Entry)}
    (isAccepted : ∀ item ∈ items, item ∈ accepted) (distinct : (items.map Prod.fst).Nodup)
    (new : ∀ item ∈ items, item.1 ∉ removals.map Prod.fst) (idle : pending removal = [])
    (others : ∀ other, other ≠ removal → pending' other = pending other)
    (now : pending' removal = if removal.cause.isSome then items else []) :
    Account pending' accepted (items.map (fun item => (item.1, removal)) ++ removals)
      selections where
  once := account.once
  owed selection member := by
    obtain ⟨entry, other, known, isRemoved, rest⟩ := account.owed selection member
    exact ⟨entry, other, known, List.mem_append_right _ isRemoved, rest⟩
  held other item member := by
    by_cases same : other = removal
    · subst same
      have isItem : item ∈ items := by
        rw [now] at member
        split at member
        · exact member
        · exact absurd member List.not_mem_nil
      refine ⟨isAccepted item isItem, List.mem_append_left _ (List.mem_map.mpr ⟨item, isItem, rfl⟩),
        fun selected => new item isItem (account.removed_of_selected selected)⟩
    · rw [others other same] at member
      obtain ⟨known, isRemoved, rest⟩ := account.held other item member
      exact ⟨known, List.mem_append_right _ isRemoved, rest⟩
  heldOnce other := by
    by_cases same : other = removal
    · subst same
      rw [now]
      split
      · exact distinct
      · exact List.nodup_nil
    · rw [others other same]
      exact account.heldOnce other
  settled key other cause isRemoved owes := by
    rcases List.mem_append.mp isRemoved with isRemoved | isRemoved
    · obtain ⟨item, isItem, same⟩ := List.mem_map.mp isRemoved
      cases same
      rw [now, owes]
      exact .inr (List.mem_map_of_mem isItem)
    · rcases account.settled key other cause isRemoved owes with selected | waits
      · exact .inl selected
      · have differ : other ≠ removal := by
          rintro rfl
          rw [idle] at waits
          exact List.not_mem_nil waits
        rw [others other differ]
        exact .inr waits

theorem takeOne {removal : Removal ι} {item : Nat × Entry} (isAccepted : item ∈ accepted)
    (new : item.1 ∉ removals.map Prod.fst) (idle : pending removal = [])
    (others : ∀ other, other ≠ removal → pending' other = pending other)
    (now : pending' removal = if removal.cause.isSome then [item] else []) :
    Account pending' accepted ((item.1, removal) :: removals) selections := by
  have isAccepted : ∀ other ∈ [item], other ∈ accepted := by simpa using isAccepted
  have new : ∀ other ∈ [item], other.1 ∉ removals.map Prod.fst := by simpa using new
  exact account.take isAccepted (List.nodup_singleton _) new idle others now

/-- A removal makes the selection of its first pending entry. -/
theorem select {removal : Removal ι} {key : Nat} {entry : Entry} {rest : List (Nat × Entry)}
    {cause : WakeCause} (owes : removal.cause = some cause)
    (first : pending removal = (key, entry) :: rest) (once : (removals.map Prod.fst).Nodup)
    (others : ∀ other, other ≠ removal → pending' other = pending other)
    (now : pending' removal = rest) :
    Account pending' accepted removals (entry.select key cause :: selections) := by
  have own : (key, entry) ∈ pending removal := first ▸ List.mem_cons_self
  obtain ⟨isAccepted, isRemoved, unselected⟩ := account.held removal (key, entry) own
  have distinct := account.heldOnce removal
  rw [first, List.map_cons, List.nodup_cons] at distinct
  refine ⟨List.nodup_cons.mpr ⟨unselected, account.once⟩, ?_, ?_, ?_, ?_⟩
  · intro selection member
    rcases List.mem_cons.mp member with rfl | member
    · exact ⟨entry, removal, isAccepted, isRemoved, owes, rfl⟩
    · exact account.owed selection member
  · intro other item member
    -- the selected key is pending nowhere else, as its entry was removed once
    by_cases same : other = removal
    · subst same
      rw [now] at member
      obtain ⟨known, gone, free⟩ := account.held other item (first ▸ List.mem_cons_of_mem _ member)
      refine ⟨known, gone, ?_⟩
      rw [List.map_cons, List.mem_cons, not_or]
      refine ⟨?_, free⟩
      intro equal
      exact distinct.1 (List.mem_map.mpr ⟨item, member, equal⟩)
    · rw [others other same] at member
      obtain ⟨known, gone, free⟩ := account.held other item member
      refine ⟨known, gone, ?_⟩
      rw [List.map_cons, List.mem_cons, not_or]
      refine ⟨?_, free⟩
      intro equal
      refine same (congrArg Prod.snd (List.inj_on_of_nodup_map once gone isRemoved ?_))
      exact equal
  · intro other
    by_cases same : other = removal
    · subst same
      rw [now]
      exact distinct.2
    · rw [others other same]
      exact account.heldOnce other
  · intro other by' due gone owed
    rcases account.settled other by' due gone owed with ⟨selection, member, rest⟩ | waits
    · exact .inl ⟨selection, List.mem_cons_of_mem _ member, rest⟩
    · by_cases same : by' = removal
      · subst same
        rw [first, List.map_cons, List.mem_cons] at waits
        rcases waits with rfl | waits
        · refine .inl ⟨_, List.mem_cons_self, rfl, ?_⟩
          exact Option.some.inj (owes.symm.trans owed)
        · rw [now]
          exact .inr waits
      · rw [others by' same]
        exact .inr waits

end Account

end VThread.Readiness
