import Mathlib.Data.List.TakeDrop
import VThread.Lib.Checked
import VThread.Ready.Queue

/-!
# Inspection of the ready queue

Cleanup selects among the entries that satisfy a predicate: one entry by the ordinary cohort
policy, or all of them one at a time.  Skipped entries keep their places.
-/

namespace VThread.Ready

variable {α : Type}

/-! ## Selection -/

/-- The loop over the wake lane: the indices of the newest and of the oldest eligible wake. -/
def eligibleWakes (eligible : α → Bool) :
    List α → Nat → Option Nat × Option Nat → Option Nat × Option Nat
  | [], _, found => found
  | task :: lane, index, (newest, oldest) =>
      if eligible task then
        eligibleWakes eligible lane (index + 1) (newest.or (some index), some index)
      else eligibleWakes eligible lane (index + 1) (newest, oldest)

namespace ReadyQueue

def removeNormal (queue : ReadyQueue α) (index : Nat) : ReadyQueue α × Option α :=
  ({ queue with normal := queue.normal.eraseIdx index }, queue.normal[index]?)

def removeWake (queue : ReadyQueue α) (index : Nat) : ReadyQueue α × Option α :=
  ({ queue with wakes := queue.wakes.eraseIdx index }, queue.wakes[index]?)

def popMatching (queue : ReadyQueue α) (eligible : α → Bool) :
    Checked (ReadyQueue α × Option α) :=
  let normal := queue.normal.findIdx? eligible
  let (newest, oldest) := eligibleWakes eligible queue.wakes 0 (none, none)
  match newest with
  | none =>
      match normal with
      | none => pure (queue, none)
      | some normal => pure ({ queue with wakeStreak := 0 }.removeNormal normal)
  | some newest =>
      if queue.wakeStreak < wakeBurst then
        pure ({ queue with wakeStreak := queue.wakeStreak + 1 }.removeWake newest)
      else
        match (if queue.wakeStreak = wakeBurst then normal else none) with
        | some normal =>
            pure ({ queue with wakeStreak := queue.wakeStreak + 1 }.removeNormal normal)
        | none => do
            let oldest ← expect oldest "eligible wake"
            pure ({ queue with wakeStreak := 0 }.removeWake oldest)

/-- `remove`: the first entry of the task, in the normal lane before the wake lane. -/
def remove [DecidableEq α] (queue : ReadyQueue α) (task : α) : ReadyQueue α × Bool :=
  if task ∈ queue.normal then ({ queue with normal := queue.normal.erase task }, true)
  else if task ∈ queue.wakes then ({ queue with wakes := queue.wakes.erase task }, true)
  else (queue, false)

end ReadyQueue

/-! ## Removal -/

/-- `Inspection`. -/
structure Inspection where
  normal : Nat
  wakes : Nat
  deriving DecidableEq

/-- What the loop over one lane did, with the entries it evaluated the predicate on. -/
structure Scan (α : Type) where
  lane : List α
  remaining : Nat
  found : Option α
  visited : List α
  deriving DecidableEq

/-- The loop of `remove_matching` over one lane. -/
def scanLane (matching : α → Bool) : Nat → List α → Checked (Scan α)
  | 0, lane => pure ⟨lane, 0, none, []⟩
  | _ + 1, [] => throw "uninspected ready entry"
  | remaining + 1, task :: lane =>
      if matching task then pure ⟨lane, remaining, some task, [task]⟩
      else do
        let scan ← scanLane matching remaining (lane ++ [task])
        pure { scan with visited := task :: scan.visited }

/-- What a call of `remove_matching` leaves and returns. -/
structure Removal (α : Type) where
  queue : ReadyQueue α
  inspection : Inspection
  found : Option α
  visited : List α
  deriving DecidableEq

namespace ReadyQueue

def inspection (queue : ReadyQueue α) : Inspection :=
  ⟨queue.normal.length, queue.wakes.length⟩

def removeMatching (queue : ReadyQueue α) (inspection : Inspection) (matching : α → Bool) :
    Checked (Removal α) := do
  let normal ← scanLane matching inspection.normal queue.normal
  match normal.found with
  | some task =>
      pure ⟨{ queue with normal := normal.lane }, ⟨normal.remaining, inspection.wakes⟩, some task,
        normal.visited⟩
  | none =>
      let wakes ← scanLane matching inspection.wakes queue.wakes
      pure ⟨{ queue with normal := normal.lane, wakes := wakes.lane },
        ⟨normal.remaining, wakes.remaining⟩, wakes.found, normal.visited ++ wakes.visited⟩

/-- Call `remove_matching` until it returns nothing, at most so many times; what was removed and
what was visited. -/
def removeAll (matching : α → Bool) :
    Nat → ReadyQueue α → Inspection → Checked (Option (ReadyQueue α × List α × List α))
  | 0, _, _ => pure none
  | calls + 1, queue, inspection => do
      let removal ← queue.removeMatching inspection matching
      match removal.found with
      | none => pure (some (removal.queue, [], removal.visited))
      | some task =>
          let rest ← removeAll matching calls removal.queue removal.inspection
          pure (rest.map fun (queue, removed, visited) =>
            (queue, task :: removed, removal.visited ++ visited))

end ReadyQueue

/-! ## The first and the last match -/

variable {eligible : α → Bool}

/-- No entry satisfies the predicate. -/
def NoMatch (eligible : α → Bool) (lane : List α) : Prop := ∀ task ∈ lane, eligible task = false

theorem NoMatch.filter {lane : List α} (none : NoMatch eligible lane) :
    lane.filter eligible = [] := by
  rw [List.filter_eq_nil_iff]
  intro task member
  simp [none task member]

theorem NoMatch.keep {lane : List α} (none : NoMatch eligible lane) :
    lane.filter (fun task => !eligible task) = lane := by
  rw [List.filter_eq_self]
  intro task member
  simp [none task member]

theorem noMatch_cons {task : α} {lane : List α} (rejected : eligible task = false)
    (none : NoMatch eligible lane) : NoMatch eligible (task :: lane) :=
  List.forall_mem_cons.mpr ⟨rejected, none⟩

theorem first_match (eligible : α → Bool) (lane : List α) : NoMatch eligible lane ∨
    ∃ before task after, lane = before ++ task :: after ∧ NoMatch eligible before ∧
      eligible task = true := by
  induction lane with
  | nil => exact .inl (by simp [NoMatch])
  | cons head lane ih =>
      cases matched : eligible head with
      | true => exact .inr ⟨[], head, lane, rfl, by simp [NoMatch], matched⟩
      | false =>
          rcases ih with none | ⟨before, task, after, rfl, none, found⟩
          · exact .inl (noMatch_cons matched none)
          · exact .inr ⟨head :: before, task, after, rfl, noMatch_cons matched none, found⟩

theorem last_match (eligible : α → Bool) (lane : List α) : NoMatch eligible lane ∨
    ∃ before task after, lane = before ++ task :: after ∧ NoMatch eligible after ∧
      eligible task = true := by
  rcases first_match eligible lane.reverse with none | ⟨before, task, after, same, none, found⟩
  · exact .inl fun task member => none task (List.mem_reverse.mpr member)
  · refine .inr ⟨after.reverse, task, before.reverse, ?_, ?_, found⟩
    · rw [← List.reverse_reverse lane, same]
      simp
    · exact fun task member => none task (List.mem_reverse.mp member)

/-! ## Removing every match -/

theorem scanLane_none {waiting : List α} (kept : List α) (none : NoMatch eligible waiting) :
    scanLane eligible waiting.length (waiting ++ kept) =
      .ok ⟨kept ++ waiting, 0, .none, waiting⟩ := by
  induction waiting generalizing kept with
  | nil => simp [scanLane, pure, Except.pure]
  | cons task waiting ih =>
      obtain ⟨rejected, none⟩ := List.forall_mem_cons.mp none
      rw [List.length_cons, List.cons_append, scanLane, if_neg (by simp [rejected]),
        List.append_assoc, ih (kept ++ [task]) none, ok_bind]
      simp [pure, Except.pure]

theorem scanLane_some {before : List α} (task : α) (after kept : List α)
    (none : NoMatch eligible before) (matched : eligible task = true) :
    scanLane eligible (before ++ task :: after).length ((before ++ task :: after) ++ kept) =
      .ok ⟨after ++ (kept ++ before), after.length, some task, before ++ [task]⟩ := by
  induction before generalizing kept with
  | nil => simp [scanLane, matched, pure, Except.pure]
  | cons head before ih =>
      obtain ⟨rejected, none⟩ := List.forall_mem_cons.mp none
      rw [List.cons_append, List.length_cons, List.cons_append, scanLane,
        if_neg (by simp [rejected]), List.append_assoc, ih (kept ++ [head]) none, ok_bind]
      simp [pure, Except.pure]

namespace ReadyQueue

/-- A call in the middle of an inspection: the entries in front of each lane are still to be
visited. -/
theorem removeMatching_cases (eligible : α → Bool)
    (normal wakes keptNormal keptWakes : List α) (streak : Nat) :
    let call := removeMatching ⟨normal ++ keptNormal, wakes ++ keptWakes, streak⟩
      ⟨normal.length, wakes.length⟩ eligible
    (∃ before task after, normal = before ++ task :: after ∧ NoMatch eligible before ∧
      eligible task = true ∧
      call = .ok ⟨⟨after ++ (keptNormal ++ before), wakes ++ keptWakes, streak⟩,
        ⟨after.length, wakes.length⟩, some task, before ++ [task]⟩) ∨
    (∃ before task after, NoMatch eligible normal ∧ wakes = before ++ task :: after ∧
      NoMatch eligible before ∧ eligible task = true ∧
      call = .ok ⟨⟨keptNormal ++ normal, after ++ (keptWakes ++ before), streak⟩,
        ⟨0, after.length⟩, some task, normal ++ (before ++ [task])⟩) ∨
    NoMatch eligible normal ∧ NoMatch eligible wakes ∧
      call = .ok ⟨⟨keptNormal ++ normal, keptWakes ++ wakes, streak⟩, ⟨0, 0⟩, none,
        normal ++ wakes⟩ := by
  intro call
  rcases first_match eligible normal with noNormal | ⟨before, task, after, rfl, none, matched⟩
  · rcases first_match eligible wakes with noWake | ⟨before, task, after, rfl, none, matched⟩
    · refine .inr (.inr ⟨noNormal, noWake, ?_⟩)
      simp only [call, removeMatching, scanLane_none _ noNormal, scanLane_none _ noWake, ok_bind]
      rfl
    · refine .inr (.inl ⟨before, task, after, noNormal, rfl, none, matched, ?_⟩)
      simp only [call, removeMatching, scanLane_none _ noNormal,
        scanLane_some task after _ none matched, ok_bind]
      rfl
  · refine .inl ⟨before, task, after, rfl, none, matched, ?_⟩
    simp only [call, removeMatching, scanLane_some task after _ none matched, ok_bind]
    rfl

/-- From the middle of an inspection, enough calls remove what matches and keep the rest. -/
theorem removeAll_eq (calls : Nat) (normal wakes keptNormal keptWakes : List α) (streak : Nat)
    (enough : ((normal ++ wakes).filter eligible).length < calls) :
    removeAll eligible calls ⟨normal ++ keptNormal, wakes ++ keptWakes, streak⟩
        ⟨normal.length, wakes.length⟩ =
      .ok (some (⟨keptNormal ++ normal.filter fun task => !eligible task,
        keptWakes ++ wakes.filter fun task => !eligible task, streak⟩,
        (normal ++ wakes).filter eligible, normal ++ wakes)) := by
  induction calls generalizing normal wakes keptNormal keptWakes with
  | zero => exact absurd enough (Nat.not_lt_zero _)
  | succ calls ih =>
      rcases removeMatching_cases eligible normal wakes keptNormal keptWakes streak
        with ⟨before, task, after, rfl, none, matched, call⟩ |
          ⟨before, task, after, noNormal, rfl, none, matched, call⟩ | ⟨noNormal, noWake, call⟩
      · rw [removeAll, call, ok_bind]
        have fewer : ((after ++ wakes).filter eligible).length < calls := by
          simpa [none.filter, matched] using enough
        simp [ih after wakes (keptNormal ++ before) keptWakes fewer, none.filter, none.keep,
          matched, pure, Except.pure]
      · rw [removeAll, call, ok_bind]
        have fewer : (([] ++ after).filter eligible).length < calls := by
          simpa [none.filter, noNormal.filter, matched] using enough
        have rest := ih [] after (keptNormal ++ normal) (keptWakes ++ before) fewer
        simp only [List.nil_append, List.length_nil] at rest
        simp [rest, none.filter, none.keep, noNormal.filter, noNormal.keep, matched,
          pure, Except.pure]
      · rw [removeAll, call, ok_bind]
        simp [noNormal.filter, noNormal.keep, noWake.filter, noWake.keep, pure, Except.pure]

/-! ## Selecting one match -/

/-- The queue of the entries that satisfy a predicate. -/
def restrict (eligible : α → Bool) (queue : ReadyQueue α) : ReadyQueue α :=
  { queue with normal := queue.normal.filter eligible, wakes := queue.wakes.filter eligible }

end ReadyQueue

/-- One entry was taken out of a lane. -/
def Taken (task : α) (lane lane' : List α) : Prop :=
  ∃ before after, lane = before ++ task :: after ∧ lane' = before ++ after

/-- The plain pop of the eligible entries gives the same task, streak and eligible rest, and no
other entry has moved. -/
structure Selects (eligible : α → Bool) (queue queue' : ReadyQueue α) (task : α) : Prop where
  plain : (queue.restrict eligible).popFront = (queue'.restrict eligible, some task)
  others : Taken task queue.normal queue'.normal ∧ queue'.wakes = queue.wakes ∨
    queue'.normal = queue.normal ∧ Taken task queue.wakes queue'.wakes

theorem eligibleWakes_none {lane : List α} (index : Nat) (found : Option Nat × Option Nat)
    (none : NoMatch eligible lane) : eligibleWakes eligible lane index found = found := by
  induction lane generalizing index with
  | nil => rfl
  | cons task lane ih =>
      obtain ⟨rejected, none⟩ := List.forall_mem_cons.mp none
      rw [eligibleWakes, if_neg (by simp [rejected]), ih (index + 1) none]

theorem eligibleWakes_append (first second : List α) (index : Nat)
    (found : Option Nat × Option Nat) :
    eligibleWakes eligible (first ++ second) index found =
      eligibleWakes eligible second (index + first.length)
        (eligibleWakes eligible first index found) := by
  induction first generalizing index found with
  | nil => rfl
  | cons task first ih =>
      rw [List.cons_append, eligibleWakes, eligibleWakes]
      split
      · rw [ih, List.length_cons]
        congr 1
        omega
      · rw [ih, List.length_cons]
        congr 1
        omega

/-- The newest index stays once it is set. -/
theorem eligibleWakes_fst (lane : List α) (index first : Nat) (oldest : Option Nat) :
    (eligibleWakes eligible lane index (some first, oldest)).1 = some first := by
  induction lane generalizing index oldest with
  | nil => rfl
  | cons task lane ih =>
      rw [eligibleWakes]
      split
      · exact ih _ _
      · exact ih _ _

theorem eligibleWakes_newest {before : List α} {task : α} (after : List α)
    (none : NoMatch eligible before) (matched : eligible task = true) :
    (eligibleWakes eligible (before ++ task :: after) 0 (.none, .none)).1 =
      some before.length := by
  rw [eligibleWakes_append, eligibleWakes_none 0 _ none, eligibleWakes, if_pos matched,
    Nat.zero_add]
  exact eligibleWakes_fst after _ _ _

theorem eligibleWakes_oldest (before : List α) {task : α} {after : List α}
    (none : NoMatch eligible after) (matched : eligible task = true) :
    (eligibleWakes eligible (before ++ task :: after) 0 (.none, .none)).2 =
      some before.length := by
  rw [eligibleWakes_append, eligibleWakes, if_pos matched, eligibleWakes_none _ _ none,
    Nat.zero_add]

theorem findIdx?_match {before : List α} {task : α} (after : List α)
    (none : NoMatch eligible before) (matched : eligible task = true) :
    (before ++ task :: after).findIdx? eligible = some before.length := by
  have missing : before.findIdx? eligible = .none := List.findIdx?_eq_none_iff.mpr none
  simp [List.findIdx?_append, missing, List.findIdx?_cons, matched]

namespace ReadyQueue

theorem removeNormal_eq (before after wakes : List α) (task : α) (streak : Nat) :
    removeNormal ⟨before ++ task :: after, wakes, streak⟩ before.length =
      (⟨before ++ after, wakes, streak⟩, some task) := by
  simp [removeNormal, List.eraseIdx_append_of_length_le]

theorem removeWake_eq (normal before after : List α) (task : α) (streak : Nat) :
    removeWake ⟨normal, before ++ task :: after, streak⟩ before.length =
      (⟨normal, before ++ after, streak⟩, some task) := by
  simp [removeWake, List.eraseIdx_append_of_length_le]

/-- The plain pop takes the oldest wake when neither a newest wake nor a normal head is due. -/
theorem popFront_oldest (normal wakes : List α) (task : α) (streak : Nat)
    (late : ¬ streak < wakeBurst) (idle : streak = wakeBurst → normal = []) :
    popFront ⟨normal, wakes ++ [task], streak⟩ = (⟨normal, wakes, 0⟩, some task) := by
  by_cases due : streak = wakeBurst
  · subst due
    rw [idle rfl]
    simp [popFront, popNormal, popOldest]
  · simp [popFront, popOldest, late, due]

theorem popMatching_normal {normal wakes : List α} (streak : Nat) (noWake : NoMatch eligible wakes)
    {before : List α} {task : α} (after : List α) (rejects : NoMatch eligible before)
    (matched : eligible task = true) (same : normal = before ++ task :: after) :
    popMatching ⟨normal, wakes, streak⟩ eligible =
        .ok (⟨before ++ after, wakes, 0⟩, some task) ∧
      Selects eligible ⟨normal, wakes, streak⟩ ⟨before ++ after, wakes, 0⟩ task := by
  subst same
  refine ⟨?_, ?_, .inl ⟨⟨before, after, rfl, rfl⟩, rfl⟩⟩
  · simp only [popMatching, eligibleWakes_none 0 (none, none) noWake,
      findIdx?_match after rejects matched, removeNormal_eq]
    rfl
  · simp [restrict, noWake.filter, rejects.filter, matched, popFront, popNormal]

/-- With an eligible wake, which one is taken depends on the streak. -/
theorem popMatching_wakes {normal wakes : List α} (streak : Nat) {newest oldest : Nat}
    (isNewest : (eligibleWakes eligible wakes 0 (none, none)).1 = some newest)
    (isOldest : (eligibleWakes eligible wakes 0 (none, none)).2 = some oldest) :
    popMatching ⟨normal, wakes, streak⟩ eligible = .ok
      (if streak < wakeBurst then removeWake ⟨normal, wakes, streak + 1⟩ newest
      else match (if streak = wakeBurst then normal.findIdx? eligible else none) with
        | some index => removeNormal ⟨normal, wakes, streak + 1⟩ index
        | none => removeWake ⟨normal, wakes, 0⟩ oldest) := by
  have both : eligibleWakes eligible wakes 0 (none, none) = (some newest, some oldest) :=
    Prod.ext isNewest isOldest
  simp only [popMatching, both]
  by_cases below : streak < wakeBurst
  · rw [if_pos below, if_pos below]
    rfl
  · rw [if_neg below, if_neg below]
    split <;> rfl

/-- With an eligible entry, the filtered pop is the plain pop of the eligible entries. -/
theorem popMatching_selects (queue : ReadyQueue α)
    (some_eligible : ∃ task ∈ queue.normal ++ queue.wakes, eligible task = true) :
    ∃ queue' task, queue.popMatching eligible = .ok (queue', some task) ∧
      Selects eligible queue queue' task := by
  obtain ⟨normal, wakes, streak⟩ := queue
  rcases first_match eligible wakes with noWake | ⟨before, newest, after, isFirst, rejects, matched⟩
  · rcases first_match eligible normal with
      noNormal | ⟨before, task, after, same, rejects, matched⟩
    · obtain ⟨task, member, isEligible⟩ := some_eligible
      rcases List.mem_append.mp member with member | member
      · exact absurd isEligible (by simp [noNormal task member])
      · exact absurd isEligible (by simp [noWake task member])
    · exact ⟨_, task, popMatching_normal streak noWake after rejects matched same⟩
  · obtain ⟨before', oldest, after', isLast, rejects', matched'⟩ :
        ∃ before' oldest after', wakes = before' ++ oldest :: after' ∧
          NoMatch eligible after' ∧ eligible oldest = true := by
      rcases last_match eligible wakes with noWake | found
      · exact absurd matched (by simp [noWake newest (by simp [isFirst])])
      · exact found
    have isNewest : (eligibleWakes eligible wakes 0 (none, none)).1 = some before.length := by
      rw [isFirst, eligibleWakes_newest after rejects matched]
    have isOldest : (eligibleWakes eligible wakes 0 (none, none)).2 = some before'.length := by
      rw [isLast, eligibleWakes_oldest before' rejects' matched']
    have newestFirst : wakes.filter eligible = newest :: after.filter eligible := by
      simp [isFirst, rejects.filter, matched]
    have oldestLast : wakes.filter eligible = before'.filter eligible ++ [oldest] := by
      simp [isLast, rejects'.filter, matched']
    rw [popMatching_wakes streak isNewest isOldest]
    by_cases below : streak < wakeBurst
    · refine ⟨⟨normal, before ++ after, streak + 1⟩, newest, ?_, ?_,
        .inr ⟨rfl, before, after, isFirst, rfl⟩⟩
      · rw [if_pos below, isFirst, removeWake_eq]
      · simp [restrict, newestFirst, rejects.filter, popFront, below]
    rw [if_neg below]
    by_cases due : streak = wakeBurst ∧ ¬ NoMatch eligible normal
    · obtain ⟨rfl, someNormal⟩ := due
      obtain ⟨before, task, after, same, rejects, matched⟩ :=
        (first_match eligible normal).resolve_left someNormal
      refine ⟨⟨before ++ after, wakes, wakeBurst + 1⟩, task, ?_, ?_,
        .inl ⟨⟨before, after, same, rfl⟩, rfl⟩⟩
      · rw [if_pos rfl, same, findIdx?_match after rejects matched]
        simp only [removeNormal_eq]
      · simp [restrict, same, newestFirst, rejects.filter, matched, popFront, popNormal]
    · have skipped : (if streak = wakeBurst then normal.findIdx? eligible else none) = none := by
        split
        · rename_i equal
          have noNormal : NoMatch eligible normal := by_contra fun other => due ⟨equal, other⟩
          exact List.findIdx?_eq_none_iff.mpr noNormal
        · rfl
      refine ⟨⟨normal, before' ++ after', 0⟩, oldest, ?_, ?_,
        .inr ⟨rfl, before', after', isLast, rfl⟩⟩
      · rw [skipped, isLast]
        simp only [removeWake_eq]
      · have popped := popFront_oldest (normal.filter eligible) (before'.filter eligible) oldest
          streak below fun equal => by
            have noNormal : NoMatch eligible normal := by_contra fun other => due ⟨equal, other⟩
            exact noNormal.filter
        simpa [restrict, oldestLast, rejects'.filter] using popped

theorem popMatching_none (queue : ReadyQueue α)
    (none : NoMatch eligible (queue.normal ++ queue.wakes)) :
    queue.popMatching eligible = .ok (queue, .none) := by
  have noNormal : queue.normal.findIdx? eligible = .none :=
    List.findIdx?_eq_none_iff.mpr fun task member => none task (List.mem_append_left _ member)
  have noWake : NoMatch eligible queue.wakes := fun task member =>
    none task (List.mem_append_right _ member)
  simp only [popMatching, eligibleWakes_none 0 (.none, .none) noWake, noNormal]
  rfl

end ReadyQueue

/-- What the filtered operations do, for a queue and a predicate. -/
structure Filters (queue : ReadyQueue α) (eligible : α → Bool) : Prop where
  selects : (∃ task ∈ queue.normal ++ queue.wakes, eligible task = true) →
    ∃ queue' task, queue.popMatching eligible = .ok (queue', some task) ∧
      Selects eligible queue queue' task
  unchanged : NoMatch eligible (queue.normal ++ queue.wakes) →
    queue.popMatching eligible = .ok (queue, none)
  removes : ∀ calls, ((queue.normal ++ queue.wakes).filter eligible).length < calls →
    ReadyQueue.removeAll eligible calls queue queue.inspection = .ok (some
      (⟨queue.normal.filter fun task => !eligible task,
        queue.wakes.filter fun task => !eligible task, queue.wakeStreak⟩,
        (queue.normal ++ queue.wakes).filter eligible, queue.normal ++ queue.wakes))

/-- For every queue and predicate a filtered selection is the plain one among the eligible
entries, and a full inspection visits every entry once and removes exactly the matches. -/
theorem filtered_selection (queue : ReadyQueue α) (eligible : α → Bool) :
    Filters queue eligible where
  selects := queue.popMatching_selects
  unchanged := queue.popMatching_none
  removes := by
    intro calls enough
    have removed := ReadyQueue.removeAll_eq calls queue.normal queue.wakes [] [] queue.wakeStreak
      enough
    simpa [ReadyQueue.inspection] using removed

/-- The normal head is rejected and the streak is used up: the oldest eligible wake is next. -/
example : (⟨[1, 2], [3, 4, 5], 2⟩ : ReadyQueue Nat).popMatching (fun task => task == 4) =
    .ok (⟨[1, 2], [3, 5], 0⟩, some 4) := by rfl

end VThread.Ready
