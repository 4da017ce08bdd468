import Mathlib.Data.List.Perm.Basic
import Mathlib.Data.List.Nodup
import Mathlib.Data.List.ReduceOption
import VThread.Ready.Queue

/-!
# Bounded service of the ready queue

An entry is found within four selections for each entry of its own lane that is at least as
old, whatever is pushed meanwhile.
-/

namespace VThread.Ready

/-! ## Runs -/

namespace ReadyQueue

variable {α β : Type}

@[simp] theorem after_nil (queue : ReadyQueue α) : queue.after [] = queue := rfl

@[simp] theorem results_nil (queue : ReadyQueue α) : queue.results [] = [] := rfl

theorem after_map (rename : α → β) (queue : ReadyQueue α) (ops : List (Op α)) :
    (queue.map rename).after (ops.map (Op.map rename)) = (queue.after ops).map rename := by
  induction ops generalizing queue with
  | nil => rfl
  | cons op ops ih => simp only [List.map_cons, after, apply_map, ih]

theorem results_pop (queue : ReadyQueue α) (ops : List (Op α)) :
    queue.results (.popFront :: ops) = queue.popFront.2 :: queue.popFront.1.results ops := rfl

theorem popFront_none {queue : ReadyQueue α} (returned : queue.popFront.2 = none) :
    queue.isEmpty := by
  obtain ⟨next, result, popped, same⟩ : ∃ next result, Pops queue next result ∧ result = none :=
    ⟨_, _, popFront_pops queue, returned⟩
  cases popped with
  | empty noNormal noWakes => simp [isEmpty, noNormal, noWakes]
  | idle | newest | normal | oldest => cases same

/-! ## Service of one lane -/

/-- The pops up to the next service of the normal lane. -/
def normalTurn (streak : Nat) : Nat :=
  if streak ≤ wakeBurst then wakeBurst + 1 - streak else wakeBurst + 2

/-- The pops up to the next service of the oldest wake. -/
def wakeTurn (streak : Nat) : Nat :=
  if streak ≤ wakeBurst then wakeBurst + 2 - streak else 1

theorem normalTurn_spec (streak : Nat) :
    streak ≤ 2 ∧ normalTurn streak + streak = 3 ∨ 2 < streak ∧ normalTurn streak = 4 := by
  unfold normalTurn wakeBurst
  split <;> omega

theorem wakeTurn_spec (streak : Nat) :
    streak ≤ 2 ∧ wakeTurn streak + streak = 4 ∨ 2 < streak ∧ wakeTurn streak = 1 := by
  unfold wakeTurn wakeBurst
  split <;> omega

/-- A pop returns the entry or brings it one pop closer. -/
theorem pop_normal {queue next : ReadyQueue α} {result : Option α}
    (popped : Pops queue next result) {older newer : List α} {entry : α}
    (lane : queue.normal = older ++ entry :: newer) :
    result = some entry ∨ ∃ older', next.normal = older' ++ entry :: newer ∧
      4 * older'.length + normalTurn next.wakeStreak + 1 ≤
        4 * older.length + normalTurn queue.wakeStreak := by
  -- A pop of the normal head returns the entry or removes an older one.
  have served : ∀ task rest, queue.normal = task :: rest →
      task = entry ∨ ∃ older', rest = older' ++ entry :: newer ∧
        older.length = older'.length + 1 := by
    intro task rest head
    rw [lane] at head
    cases older with
    | nil =>
        obtain ⟨rfl, rfl⟩ := List.cons.inj head
        exact .inl rfl
    | cons oldest older =>
        obtain ⟨rfl, rfl⟩ := List.cons.inj head
        exact .inr ⟨older, rfl, rfl⟩
  cases popped with
  | empty noNormal => simp [noNormal] at lane
  | idle task rest head =>
      rcases served task rest head with rfl | ⟨older', split, shorter⟩
      · exact .inl rfl
      · refine .inr ⟨older', split, ?_⟩
        have before := normalTurn_spec queue.wakeStreak
        have after := normalTurn_spec 0
        dsimp only
        omega
  | newest _ _ _ below =>
      refine .inr ⟨older, lane, ?_⟩
      have before := normalTurn_spec queue.wakeStreak
      have after := normalTurn_spec (queue.wakeStreak + 1)
      dsimp only [wakeBurst] at below ⊢
      omega
  | normal task rest head _ equal =>
      rcases served task rest head with rfl | ⟨older', split, shorter⟩
      · exact .inl rfl
      · refine .inr ⟨older', split, ?_⟩
        have before := normalTurn_spec queue.wakeStreak
        have after := normalTurn_spec (wakeBurst + 1)
        dsimp only [wakeBurst] at equal after ⊢
        omega
  | oldest _ _ _ due =>
      rcases due with ⟨equal, noNormal⟩ | above
      · simp [noNormal] at lane
      · refine .inr ⟨older, lane, ?_⟩
        have before := normalTurn_spec queue.wakeStreak
        have after := normalTurn_spec 0
        dsimp only [wakeBurst] at above ⊢
        omega

theorem pop_wake {queue next : ReadyQueue α} {result : Option α}
    (popped : Pops queue next result) {newer older : List α} {entry : α}
    (lane : queue.wakes = newer ++ entry :: older) :
    result = some entry ∨ ∃ newer' older', next.wakes = newer' ++ entry :: older' ∧
      4 * older'.length + wakeTurn next.wakeStreak + 1 ≤
        4 * older.length + wakeTurn queue.wakeStreak := by
  have someWakes : queue.wakes ≠ [] := by simp [lane]
  cases popped with
  | empty noNormal noWakes => exact absurd noWakes someWakes
  | idle _ _ _ noWakes => exact absurd noWakes someWakes
  | newest task rest head below =>
      rw [lane] at head
      cases newer with
      | nil =>
          obtain ⟨rfl, rfl⟩ := List.cons.inj head
          exact .inl rfl
      | cons newest newer =>
          obtain ⟨rfl, rfl⟩ := List.cons.inj head
          refine .inr ⟨newer, older, rfl, ?_⟩
          have before := wakeTurn_spec queue.wakeStreak
          have after := wakeTurn_spec (queue.wakeStreak + 1)
          dsimp only [wakeBurst] at below ⊢
          omega
  | normal _ _ _ _ equal =>
      refine .inr ⟨newer, older, lane, ?_⟩
      have before := wakeTurn_spec queue.wakeStreak
      have after := wakeTurn_spec (wakeBurst + 1)
      dsimp only [wakeBurst] at equal after ⊢
      omega
  | oldest _ _ last =>
      rw [lane] at last
      rcases List.eq_nil_or_concat older with rfl | ⟨older', oldest, rfl⟩
      · obtain ⟨-, same⟩ := List.append_inj' last rfl
        exact .inl (congrArg some (List.cons.inj same).1.symm)
      · rw [List.concat_eq_append, ← List.cons_append, ← List.append_assoc] at last
        obtain ⟨kept, -⟩ := List.append_inj' last rfl
        refine .inr ⟨newer, older', kept.symm, ?_⟩
        have shorter : (older'.concat oldest).length = older'.length + 1 := by simp
        have before := wakeTurn_spec queue.wakeStreak
        have after := wakeTurn_spec 0
        dsimp only
        omega

theorem normal_served (ops : List (Op α)) {queue : ReadyQueue α} {older newer : List α}
    {entry : α} (lane : queue.normal = older ++ entry :: newer) {budget : Nat}
    (enough : 4 * older.length + normalTurn queue.wakeStreak ≤ budget)
    (pops : budget ≤ (queue.results ops).length) :
    some entry ∈ (queue.results ops).take budget := by
  induction ops generalizing queue older newer budget with
  | nil =>
      have turn := normalTurn_spec queue.wakeStreak
      have noPops : budget ≤ 0 := pops
      omega
  | cons op ops ih =>
      cases op with
      | pushBack task =>
          have grown : (queue.pushBack task).normal = older ++ entry :: (newer ++ [task]) := by
            simp [pushBack, lane]
          exact ih grown enough pops
      | pushWake task =>
          have kept : (queue.pushWake task).normal = older ++ entry :: newer := lane
          exact ih kept enough pops
      | popFront =>
          have turn := normalTurn_spec queue.wakeStreak
          obtain ⟨rest, rfl⟩ : ∃ rest, budget = rest + 1 := ⟨budget - 1, by omega⟩
          rw [results_pop] at pops ⊢
          rw [List.take_succ_cons, List.mem_cons]
          rcases pop_normal (popFront_pops queue) lane with found | ⟨older', lane', closer⟩
          · exact .inl found.symm
          · have later := Nat.le_of_succ_le_succ pops
            exact .inr (ih lane' (by omega) later)

theorem wake_served (ops : List (Op α)) {queue : ReadyQueue α} {newer older : List α}
    {entry : α} (lane : queue.wakes = newer ++ entry :: older) {budget : Nat}
    (enough : 4 * older.length + wakeTurn queue.wakeStreak ≤ budget)
    (pops : budget ≤ (queue.results ops).length) :
    some entry ∈ (queue.results ops).take budget := by
  induction ops generalizing queue newer older budget with
  | nil =>
      have turn := wakeTurn_spec queue.wakeStreak
      have noPops : budget ≤ 0 := pops
      omega
  | cons op ops ih =>
      cases op with
      | pushBack task =>
          have kept : (queue.pushBack task).wakes = newer ++ entry :: older := lane
          exact ih kept enough pops
      | pushWake task =>
          have grown : (queue.pushWake task).wakes = (task :: newer) ++ entry :: older := by
            simp [pushWake, lane]
          exact ih grown enough pops
      | popFront =>
          have turn := wakeTurn_spec queue.wakeStreak
          obtain ⟨rest, rfl⟩ : ∃ rest, budget = rest + 1 := ⟨budget - 1, by omega⟩
          rw [results_pop] at pops ⊢
          rw [List.take_succ_cons, List.mem_cons]
          rcases pop_wake (popFront_pops queue) lane with found | ⟨newer', older', lane', closer⟩
          · exact .inl found.symm
          · have later := Nat.le_of_succ_le_succ pops
            exact .inr (ih lane' (by omega) later)

/-! ## Conservation and order -/

/-- The entries a run pushes. -/
def pushed : List (Op α) → List α
  | [] => []
  | .pushBack task :: ops => task :: pushed ops
  | .pushWake task :: ops => task :: pushed ops
  | .popFront :: ops => pushed ops

/-- The entries a run pushes into the normal lane. -/
def pushedBack : List (Op α) → List α
  | [] => []
  | .pushBack task :: ops => task :: pushedBack ops
  | .pushWake _ :: ops => pushedBack ops
  | .popFront :: ops => pushedBack ops

/-- The entries a run returns. -/
def served (queue : ReadyQueue α) (ops : List (Op α)) : List α :=
  (queue.results ops).reduceOption

/-- The entries in the queue. -/
def held (queue : ReadyQueue α) : List α := queue.normal ++ queue.wakes

theorem pop_held {queue next : ReadyQueue α} {result : Option α}
    (popped : Pops queue next result) :
    (result.toList ++ next.held).Perm queue.held := by
  cases popped with
  | empty => exact .refl _
  | idle task rest head noWakes => simp [held, head, noWakes]
  | newest _ _ head =>
      simp only [held, head, Option.toList_some, List.singleton_append]
      exact List.perm_middle.symm
  | normal _ _ head => simp [held, head]
  | oldest _ _ last =>
      simp only [held, last, Option.toList_some, List.singleton_append, ← List.append_assoc]
      exact (List.perm_append_singleton _ _).symm

theorem served_pop (queue : ReadyQueue α) (ops : List (Op α)) :
    queue.served (.popFront :: ops) =
      queue.popFront.2.toList ++ queue.popFront.1.served ops := by
  rw [served, results_pop]
  cases queue.popFront.2 with
  | none => exact List.reduceOption_cons_of_none _
  | some task => exact List.reduceOption_cons_of_some _ _

theorem served_held (ops : List (Op α)) (queue : ReadyQueue α) :
    (queue.served ops ++ (queue.after ops).held).Perm (queue.held ++ pushed ops) := by
  induction ops generalizing queue with
  | nil => simp [served, pushed]
  | cons op ops ih =>
      cases op with
      | pushBack task =>
          have grown : (queue.pushBack task).held.Perm (task :: queue.held) := by
            simp only [held, pushBack, List.append_assoc, List.singleton_append]
            exact List.perm_middle
          exact (ih _).trans ((grown.append_right _).trans List.perm_middle.symm)
      | pushWake task =>
          have grown : (queue.pushWake task).held.Perm (task :: queue.held) := List.perm_middle
          exact (ih _).trans ((grown.append_right _).trans List.perm_middle.symm)
      | popFront =>
          have step := pop_held (popFront_pops queue)
          have rest := (ih queue.popFront.1).append_left queue.popFront.2.toList
          rw [← List.append_assoc queue.popFront.2.toList queue.popFront.1.held] at rest
          rw [served_pop, List.append_assoc]
          exact rest.trans (step.append_right _)

/-- The lane of an entry can be told from the entry. -/
structure Sorted (isNormal : α → Bool) (queue : ReadyQueue α) : Prop where
  normal : ∀ task ∈ queue.normal, isNormal task
  wakes : ∀ task ∈ queue.wakes, isNormal task = false

/-- Pushes keep the entries of the two lanes apart. -/
def SortedOps (isNormal : α → Bool) : List (Op α) → Prop
  | [] => True
  | .pushBack task :: ops => isNormal task ∧ SortedOps isNormal ops
  | .pushWake task :: ops => isNormal task = false ∧ SortedOps isNormal ops
  | .popFront :: ops => SortedOps isNormal ops

theorem Sorted.pop {isNormal : α → Bool} {queue next : ReadyQueue α} {result : Option α}
    (sorted : queue.Sorted isNormal) (popped : Pops queue next result) :
    next.Sorted isNormal ∧
      result.toList.filter isNormal ++ next.normal = queue.normal := by
  cases popped with
  | empty => exact ⟨⟨sorted.normal, sorted.wakes⟩, rfl⟩
  | idle task rest head noWakes | normal task rest head someWakes equal =>
      have here : isNormal task := sorted.normal task (by simp [head])
      have kept : ∀ other ∈ rest, isNormal other := fun other member =>
        sorted.normal other (by simp [head, member])
      exact ⟨⟨kept, sorted.wakes⟩, by simp [here, head]⟩
  | newest task rest head below =>
      have here : isNormal task = false := sorted.wakes task (by simp [head])
      have kept : ∀ other ∈ rest, isNormal other = false := fun other member =>
        sorted.wakes other (by simp [head, member])
      exact ⟨⟨sorted.normal, kept⟩, by simp [here]⟩
  | oldest rest task last due =>
      have here : isNormal task = false := sorted.wakes task (by simp [last])
      have kept : ∀ other ∈ rest, isNormal other = false := fun other member =>
        sorted.wakes other (by simp [last, member])
      exact ⟨⟨sorted.normal, kept⟩, by simp [here]⟩

/-- The normal lane is served in the order it was filled. -/
theorem served_normal {isNormal : α → Bool} (ops : List (Op α)) {queue : ReadyQueue α}
    (sorted : queue.Sorted isNormal) (sortedOps : SortedOps isNormal ops) :
    (queue.served ops).filter isNormal ++ (queue.after ops).normal =
      queue.normal ++ pushedBack ops := by
  induction ops generalizing queue with
  | nil => simp [served, pushedBack]
  | cons op ops ih =>
      cases op with
      | pushBack task =>
          obtain ⟨here, later⟩ := sortedOps
          have grown : (queue.pushBack task).Sorted isNormal := by
            refine ⟨fun other member => ?_, sorted.wakes⟩
            rcases List.mem_append.mp member with old | new
            · exact sorted.normal other old
            · rw [List.mem_singleton.mp new]
              exact here
          have rest := ih grown later
          rw [pushBack, List.append_assoc] at rest
          exact rest
      | pushWake task =>
          obtain ⟨here, later⟩ := sortedOps
          have grown : (queue.pushWake task).Sorted isNormal := by
            refine ⟨sorted.normal, fun other member => ?_⟩
            rcases List.mem_cons.mp member with rfl | old
            · exact here
            · exact sorted.wakes other old
          exact ih grown later
      | popFront =>
          obtain ⟨kept, head⟩ := sorted.pop (popFront_pops queue)
          rw [served_pop, List.filter_append, List.append_assoc]
          have rest := ih kept sortedOps
          calc queue.popFront.2.toList.filter isNormal ++
                ((queue.popFront.1.served ops).filter isNormal ++
                  (queue.popFront.1.after ops).normal)
              = queue.popFront.2.toList.filter isNormal ++
                  (queue.popFront.1.normal ++ pushedBack ops) := by rw [rest]
            _ = queue.normal ++ pushedBack ops := by rw [← List.append_assoc, head]

end ReadyQueue

/-! ## Entries -/

inductive Lane where
  | normal
  | wake
  deriving DecidableEq

/-- A task queued in a lane; the serial tells repeated queueings of a task apart. -/
structure Entry (α : Type) where
  task : α
  lane : Lane
  serial : Nat
  deriving DecidableEq

namespace ReadyQueue

variable {α : Type}

/-- Number the tasks of a lane. -/
def numberLane (lane : Lane) : Nat → List α → List (Entry α)
  | _, [] => []
  | serial, task :: rest => ⟨task, lane, serial⟩ :: numberLane lane (serial + 1) rest

/-- The queue with its entries numbered. -/
def number (queue : ReadyQueue α) : ReadyQueue (Entry α) :=
  ⟨numberLane .normal 0 queue.normal, numberLane .wake queue.normal.length queue.wakes,
    queue.wakeStreak⟩

/-- A run with its pushes numbered. -/
def numberOps : Nat → List (Op α) → List (Op (Entry α))
  | _, [] => []
  | serial, .pushBack task :: ops => .pushBack ⟨task, .normal, serial⟩ :: numberOps (serial + 1) ops
  | serial, .pushWake task :: ops => .pushWake ⟨task, .wake, serial⟩ :: numberOps (serial + 1) ops
  | serial, .popFront :: ops => .popFront :: numberOps serial ops

theorem numberLane_task (lane : Lane) (serial : Nat) (tasks : List α) :
    (numberLane lane serial tasks).map Entry.task = tasks := by
  induction tasks generalizing serial with
  | nil => rfl
  | cons task rest ih => simp [numberLane, ih]

theorem numberLane_serial (lane : Lane) (serial : Nat) (tasks : List α) :
    (numberLane lane serial tasks).map Entry.serial = List.range' serial tasks.length := by
  induction tasks generalizing serial with
  | nil => rfl
  | cons task rest ih => simp [numberLane, ih, List.range'_succ]

theorem numberLane_lane {lane : Lane} {serial : Nat} {tasks : List α} {entry : Entry α}
    (member : entry ∈ numberLane lane serial tasks) : entry.lane = lane := by
  induction tasks generalizing serial with
  | nil => cases member
  | cons task rest ih =>
      rcases List.mem_cons.mp member with rfl | later
      · rfl
      · exact ih later

theorem number_task (queue : ReadyQueue α) : queue.number.map Entry.task = queue := by
  simp [number, map, numberLane_task]

theorem numberOps_task (serial : Nat) (ops : List (Op α)) :
    (numberOps serial ops).map (Op.map Entry.task) = ops := by
  induction ops generalizing serial with
  | nil => rfl
  | cons op ops ih => cases op <;> simp [numberOps, Op.map, ih]

theorem pushed_serial (serial : Nat) (ops : List (Op α)) :
    (pushed (numberOps serial ops)).map Entry.serial = List.range' serial (pushed ops).length := by
  induction ops generalizing serial with
  | nil => rfl
  | cons op ops ih => cases op <;> simp [numberOps, pushed, ih, List.range'_succ]

theorem held_serial (queue : ReadyQueue α) :
    queue.number.held.map Entry.serial = List.range queue.len := by
  rw [held, number, List.map_append, numberLane_serial, numberLane_serial, len,
    List.range_eq_range']
  have append := @List.range'_append_1 0 queue.normal.length queue.wakes.length
  rwa [Nat.zero_add] at append

theorem entries_distinct (queue : ReadyQueue α) (ops : List (Op α)) :
    ((queue.number.held ++ pushed (numberOps queue.len ops)).map Entry.serial).Nodup := by
  have joined : List.range' 0 queue.len ++ List.range' queue.len (pushed ops).length =
      List.range' 0 (queue.len + (pushed ops).length) := by
    have append := @List.range'_append_1 0 queue.len (pushed ops).length
    rwa [Nat.zero_add] at append
  rw [List.map_append, held_serial, pushed_serial, List.range_eq_range', joined]
  exact List.nodup_range'

theorem number_sorted (queue : ReadyQueue α) :
    queue.number.Sorted (fun entry => entry.lane = .normal) where
  normal := fun _ member => decide_eq_true (numberLane_lane member)
  wakes := by
    intro entry member
    have lane : entry.lane = .wake := numberLane_lane member
    simp [lane]

theorem numberOps_sorted (serial : Nat) (ops : List (Op α)) :
    SortedOps (fun entry => entry.lane = .normal) (numberOps serial ops) := by
  induction ops generalizing serial with
  | nil => trivial
  | cons op ops ih =>
      cases op with
      | pushBack | pushWake => exact ⟨rfl, ih _⟩
      | popFront => exact ih _

end ReadyQueue

/-! ## Service -/

section

open ReadyQueue

variable {α : Type}

/-- What a run of the queue over numbered entries does. -/
structure Serves (queue : ReadyQueue (Entry α)) (ops : List (Op (Entry α))) : Prop where
  /-- Every entry held or pushed is returned or still held. -/
  conserved : (queue.served ops ++ (queue.after ops).held).Perm (queue.held ++ pushed ops)
  once : ((queue.served ops).map Entry.serial).Nodup
  /-- The normal lane is served in insertion order. -/
  inOrder : (queue.served ops).filter (fun entry => entry.lane = .normal) ++
    (queue.after ops).normal = queue.normal ++ pushedBack ops
  empty : ∀ before later, ops = before ++ .popFront :: later →
    (queue.after before).popFront.2 = none → (queue.after before).isEmpty
  normalBound : ∀ before later, ops = before ++ later → ∀ older entry newer,
    (queue.after before).normal = older ++ entry :: newer →
    4 * (older.length + 1) ≤ ((queue.after before).results later).length →
    some entry ∈ ((queue.after before).results later).take (4 * (older.length + 1))
  wakeBound : ∀ before later, ops = before ++ later → ∀ newer entry older,
    (queue.after before).wakes = newer ++ entry :: older →
    4 * (older.length + 1) ≤ ((queue.after before).results later).length →
    some entry ∈ ((queue.after before).results later).take (4 * (older.length + 1))

/-- Numbering the entries changes no pop, and the numbered run is served in bounds. -/
theorem bounded_service (queue : ReadyQueue α) (ops : List (Op α)) :
    (queue.number.results (numberOps queue.len ops)).map (Option.map Entry.task) =
        queue.results ops ∧
      (queue.number.after (numberOps queue.len ops)).map Entry.task = queue.after ops ∧
      Serves queue.number (numberOps queue.len ops) := by
  refine ⟨?_, ?_, ?_⟩
  · rw [← results_map, number_task, numberOps_task]
  · rw [← after_map, number_task, numberOps_task]
  · have conserved := served_held (numberOps queue.len ops) queue.number
    have distinct := entries_distinct queue ops
    refine ⟨conserved, ?_, served_normal _ (number_sorted queue) (numberOps_sorted _ ops),
      fun _ _ _ => popFront_none, ?_, ?_⟩
    · have all := ((conserved.map Entry.serial).nodup_iff).mpr distinct
      rw [List.map_append] at all
      exact all.of_append_left
    · intro before later _ older entry newer lane
      have turn := normalTurn_spec (queue.number.after before).wakeStreak
      exact normal_served later lane (by omega)
    · intro before later _ newer entry older lane
      have turn := wakeTurn_spec (queue.number.after before).wakeStreak
      exact wake_served later lane (by omega)

end

end VThread.Ready
