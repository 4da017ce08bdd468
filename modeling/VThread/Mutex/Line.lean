import VThread.Mutex.Queue

/-!
# The queue in order of arrival

Tickets are numbered when they are queued.  They are granted the ownership in that order,
up to those that leave the queue without it.
-/

namespace VThread.Mutex

variable {ι : Type}

/-- The entries, the numbers of the newest tickets, and the fates of all tickets agree. -/
structure Line (entries : List (Entry ι)) (arrivals : Nat) (arrival : ι → Option Nat)
    (fate : Nat → Option Fate) : Prop where
  waits : (entries.map Entry.wait).Nodup
  sorted : (entries.map Entry.arrival).Pairwise (· < ·)
  numbered : ∀ entry ∈ entries, arrival entry.wait = some entry.arrival
  queued : ∀ number, fate number = some .queued ↔ number ∈ entries.map Entry.arrival
  arrived : ∀ number, fate number = none ↔ arrivals ≤ number
  issued : ∀ thread number, arrival thread = some number → number < arrivals
  unique : ∀ thread other number, arrival thread = some number →
    arrival other = some number → thread = other
  ordered : ∀ earlier later, earlier < later → fate later = some .granted →
    fate earlier ≠ some .queued

namespace Line

variable {entries : List (Entry ι)} {arrivals : Nat} {arrival : ι → Option Nat}
  {fate : Nat → Option Fate} {thread : ι}

theorem empty : Line [] 0 (fun _ : ι => none) fun _ => none where
  waits := .nil
  sorted := .nil
  numbered := nofun
  queued := by simp
  arrived := by simp
  issued := nofun
  unique := nofun
  ordered := nofun

/-- The number of the next ticket is unused. -/
theorem unused (line : Line entries arrivals arrival fate) : fate arrivals = none :=
  (line.arrived _).mpr (Nat.le_refl _)

theorem older (line : Line entries arrivals arrival fate) {entry : Entry ι}
    (member : entry ∈ entries) : entry.arrival < arrivals :=
  line.issued _ _ (line.numbered entry member)

theorem fate_queued (line : Line entries arrivals arrival fate) {entry : Entry ι}
    (member : entry ∈ entries) : fate entry.arrival = some .queued :=
  (line.queued _).mpr (List.mem_map_of_mem member)

/-- An arrival joins at the back. -/
theorem push [DecidableEq ι] (line : Line entries arrivals arrival fate)
    (absent : thread ∉ entries.map Entry.wait) :
    Line (entries ++ [⟨thread, arrivals⟩]) (arrivals + 1)
      (Function.update arrival thread (some arrivals))
      (Function.update fate arrivals (some .queued)) where
  waits := by simpa [List.nodup_append, line.waits] using absent
  sorted := by
    have older : ∀ entry ∈ entries, entry.arrival < arrivals := fun _ => line.older
    simpa [List.pairwise_append, line.sorted] using older
  numbered entry member := by
    rcases List.mem_append.mp member with member | member
    · have differ : entry.wait ≠ thread := by
        intro same
        exact absent (List.mem_map.mpr ⟨entry, member, same⟩)
      simpa [differ] using line.numbered entry member
    · rw [List.mem_singleton] at member
      subst member
      simp
  queued number := by
    by_cases new : number = arrivals
    · simp [new]
    · simp [new, line.queued number]
  arrived number := by
    by_cases new : number = arrivals
    · simp [new]
    · rw [Function.update_of_ne new, line.arrived number]
      omega
  issued other number numbered := by
    by_cases same : other = thread
    · subst same
      rw [Function.update_self, Option.some.injEq] at numbered
      omega
    · rw [Function.update_of_ne same] at numbered
      exact Nat.lt_succ_of_lt (line.issued _ _ numbered)
  unique left right number isLeft isRight := by
    by_cases sameLeft : left = thread
    · by_cases sameRight : right = thread
      · rw [sameLeft, sameRight]
      · rw [sameLeft, Function.update_self, Option.some.injEq] at isLeft
        rw [Function.update_of_ne sameRight] at isRight
        exact absurd isLeft.symm (Nat.ne_of_lt (line.issued _ _ isRight))
    · rw [Function.update_of_ne sameLeft] at isLeft
      by_cases sameRight : right = thread
      · rw [sameRight, Function.update_self, Option.some.injEq] at isRight
        exact absurd isRight.symm (Nat.ne_of_lt (line.issued _ _ isLeft))
      · rw [Function.update_of_ne sameRight] at isRight
        exact line.unique _ _ _ isLeft isRight
  ordered earlier later less granted := by
    have laterOld : later ≠ arrivals := by
      intro new
      rw [new, Function.update_self] at granted
      cases granted
    rw [Function.update_of_ne laterOld] at granted
    have issued : later < arrivals := by
      by_contra late
      rw [(line.arrived later).mpr (Nat.le_of_not_lt late)] at granted
      cases granted
    have old : earlier ≠ arrivals := by omega
    rw [Function.update_of_ne old]
    exact line.ordered _ _ less granted

/-- An entry leaves, with a fate; only the first one may be granted the ownership. -/
theorem leave (line : Line entries arrivals arrival fate) {entry : Entry ι}
    {before after : List (Entry ι)} (split : entries = before ++ entry :: after)
    {final : Fate} (left : final ≠ .queued) (front : final = .granted → before = []) :
    Line (before ++ after) arrivals arrival
      (Function.update fate entry.arrival (some final)) where
  waits := by
    have waits := line.waits
    rw [split] at waits
    exact waits.sublist (by simp)
  sorted := by
    have sorted := line.sorted
    rw [split] at sorted
    exact sorted.sublist (by simp)
  numbered other member := by
    apply line.numbered other
    rw [split]
    rcases List.mem_append.mp member with member | member
    · exact List.mem_append_left _ member
    · exact List.mem_append_right _ (List.mem_cons_of_mem _ member)
  queued number := by
    have sorted := line.sorted
    rw [split, List.map_append, List.map_cons] at sorted
    by_cases same : number = entry.arrival
    · subst same
      have absent : entry.arrival ∉ (before ++ after).map Entry.arrival := by
        have distinct := sorted.imp Nat.ne_of_lt
        have nodup : (before.map Entry.arrival ++ entry.arrival ::
          after.map Entry.arrival).Nodup := distinct
        have first := (List.nodup_cons.mp (List.perm_middle.nodup_iff.mp nodup)).1
        simpa using first
      simp only [Function.update_self, Option.some.injEq]
      exact ⟨fun equal => absurd equal left, fun member => absurd member absent⟩
    · rw [Function.update_of_ne same, line.queued number, split]
      simp [same]
  arrived number := by
    by_cases same : number = entry.arrival
    · subst same
      have member : entry ∈ entries := by simp [split]
      have older := line.older member
      simp only [Function.update_self, reduceCtorEq, false_iff]
      omega
    · rw [Function.update_of_ne same, line.arrived number]
  issued := line.issued
  unique := line.unique
  ordered earlier later less granted := by
    by_cases sameEarlier : earlier = entry.arrival
    · rw [sameEarlier, Function.update_self]
      simpa using left
    · rw [Function.update_of_ne sameEarlier]
      by_cases sameLater : later = entry.arrival
      · rw [sameLater, Function.update_self, Option.some.injEq] at granted
        rw [front granted, List.nil_append] at split
        intro queued
        have member := (line.queued earlier).mp queued
        have sorted := line.sorted
        rw [split, List.map_cons, List.pairwise_cons] at sorted
        rw [split, List.map_cons, List.mem_cons] at member
        rcases member with same | member
        · exact sameEarlier same
        · have := sorted.1 earlier member
          omega
      · rw [Function.update_of_ne sameLater] at granted
        exact line.ordered _ _ less granted

end Line

end VThread.Mutex
