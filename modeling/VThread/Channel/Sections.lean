import VThread.Channel.Invariant

/-!
# Sections under the lock

What every section of a channel leaves behind, up to its notifications.
-/

namespace VThread.Channel

open VThread.Lib VThread.Wait

variable {ι α : Type} {thread other : ι} {shared after : Shared ι α}
  {run : Run ι α} {next : Resume ι α}

namespace Shared

/-- The lock is taken. -/
def hold (shared : Shared ι α) (thread : ι) : Shared ι α := { shared with lock := some thread }

theorem hold_locked : (shared.hold thread).lock = none → (shared.hold thread).pending = [] := by
  rintro ⟨⟩

theorem Inv.hold (inv : shared.Inv) : (shared.hold thread).Inv :=
  { inv with unlocked := hold_locked }

/-! ## Results -/

@[simp] theorem sent_finish (result : Result α) :
    (shared.finish thread result).sent = shared.sent ++ (sentValue (thread, result)).toList := by
  rw [sent, finish, List.filterMap_append]
  cases result <;> rfl

@[simp] theorem received_finish (result : Result α) : (shared.finish thread result).received =
    shared.received ++ (receivedValue (thread, result)).toList := by
  rw [received, finish, List.filterMap_append]
  cases result <;> rfl

theorem Inv.fail (inv : shared.Inv) (op : Op α) (error : Error) :
    (shared.finish thread (op.fail error)).Inv := by
  refine { inv with fifo := ?_ }
  rw [sent_finish, received_finish]
  cases op <;> simpa [Op.fail, sentValue, receivedValue, finish] using inv.fifo

/-! ## Notifications -/

theorem front_mem {direction : Direction} (first : shared.front direction = some thread) :
    thread ∈ (shared.waits direction).map Entry.wait := by
  obtain ⟨entry, isFirst, rfl⟩ := Option.map_eq_some_iff.mp first
  exact List.mem_map_of_mem (List.mem_of_head? isFirst)

/-- After `wake_fronts` everybody who can go on is about to be notified. -/
theorem not_due_wakeFronts : ¬ (shared.wakeFronts).Due thread := by
  rintro ⟨quiet, direction, first, -⟩
  refine quiet ?_
  obtain ⟨entry, isFirst, rfl⟩ := Option.map_eq_some_iff.mp first
  have isFirst : (shared.waits direction).head? = some entry := isFirst
  rw [wakeFronts, List.mem_append]
  cases direction with
  | send => exact .inl (by simp [isFirst])
  | recv => exact .inr (by simp [isFirst])

/-- After `wake_all` everybody who waits is about to be notified. -/
theorem mem_wakeAll {direction : Direction}
    (queued : thread ∈ (shared.waits direction).map Entry.wait) :
    thread ∈ (shared.wakeAll).pending := by
  rw [wakeAll, List.map_append, List.mem_append]
  cases direction with
  | send => exact .inl queued
  | recv => exact .inr queued

end Shared

/-! ## Turns -/

/-- Nobody but the thread itself joins or leaves a queue. -/
def OthersStay (thread : ι) (shared after : Shared ι α) : Prop :=
  ∀ direction, Turns.Step Entry.wait thread (shared.waits direction) (after.waits direction)

theorem OthersStay.queued (stay : OthersStay thread shared after) (differ : other ≠ thread)
    (direction : Direction) : other ∈ (after.waits direction).map Entry.wait ↔
      other ∈ (shared.waits direction).map Entry.wait := by
  constructor
  · intro queued
    obtain ⟨entry, member, rfl⟩ := List.mem_map.mp queued
    exact List.mem_map_of_mem (((stay direction).others differ).mp member)
  · intro queued
    obtain ⟨entry, member, rfl⟩ := List.mem_map.mp queued
    exact List.mem_map_of_mem (((stay direction).others differ).mpr member)

/-- The turn of a ticket: nobody waits, or the ticket is the first one. -/
inductive TakesTurn (thread : ι) (run : Run ι α) : List (Entry ι) → List (Entry ι) → Prop where
  | alone : run.ticket.queued = false → TakesTurn thread run [] []
  | first (entry : Entry ι) (rest : List (Entry ι)) : entry.wait = thread →
      run.ticket.queued = true → TakesTurn thread run (entry :: rest) rest

/-- A queued ticket has its entry in the queue. -/
theorem Run.Known.mem (known : run.Known thread (shared.view thread).queued) :
    thread ∈ (shared.waits run.op.direction).map Entry.wait ↔ run.ticket.queued = true := by
  have isQueued := known.queued run.op.direction
  simpa [Shared.view] using isQueued

/-- A ticket takes its turn, or another one is first. -/
theorem takeTurn_cases [DecidableEq ι] (known : run.Known thread (shared.view thread).queued) :
    (∃ ticket rest, run.ticket.takeTurn (shared.waits run.ticket.direction) =
        .ok (some (ticket, rest)) ∧
      TakesTurn thread run (shared.waits run.op.direction) rest) ∨
    run.ticket.takeTurn (shared.waits run.ticket.direction) = .ok none ∧
      shared.waits run.op.direction ≠ [] ∧ shared.front run.op.direction ≠ some thread := by
  have member := known.mem
  rw [known.direction]
  cases waits : shared.waits run.op.direction with
  | nil =>
      have unqueued : run.ticket.queued = false := by
        rw [waits] at member
        simpa using member
      refine .inl ⟨run.ticket, [], ?_, .alone unqueued⟩
      rw [Ticket.takeTurn, ensure_of unqueued, ok_bind]
      rfl
  | cons front rest =>
      cases queued : run.ticket.queued with
      | false =>
          refine .inr ⟨?_, by simp, fun first => ?_⟩
          · rw [Ticket.takeTurn, if_pos queued]
            rfl
          · rw [queued] at member
            exact Bool.false_ne_true (member.mp (Shared.front_mem first))
      | true =>
          have attached : run.ticket.wait = some thread := by
            rw [known.wait, known.entered queued]
            rfl
          rw [Ticket.takeTurn, if_neg (by simp [queued]), attached, expect_some, ok_bind]
          by_cases own : front.wait = thread
          · rw [if_pos own]
            exact .inl ⟨_, rest, rfl, .first front rest own queued⟩
          · rw [if_neg own]
            refine .inr ⟨rfl, by simp, fun first => own ?_⟩
            simpa [Shared.front, waits] using first

namespace TakesTurn

variable {rest : List (Entry ι)}

theorem sublist {waits : List (Entry ι)} (turn : TakesTurn thread run waits rest) :
    rest.Sublist waits := by
  cases turn with
  | alone => exact .refl _
  | first entry => exact List.sublist_cons_self entry rest

theorem leaves {waits : List (Entry ι)} (turn : TakesTurn thread run waits rest) :
    Turns.Step Entry.wait thread waits rest := by
  cases turn with
  | alone => exact .stays
  | first front _ own =>
      refine .leaves rest (List.sublist_cons_self front rest) fun entry member differ => ?_
      rcases List.mem_cons.mp member with rfl | member
      · exact absurd own differ
      · exact member

theorem absent {waits : List (Entry ι)} (turn : TakesTurn thread run waits rest) {next : Nat}
    (turns : Turns Entry.wait Entry.arrival waits next) : thread ∉ rest.map Entry.wait := by
  cases turn with
  | alone => exact List.not_mem_nil
  | first front _ own =>
      rw [← own]
      exact turns.not_mem_rest

end TakesTurn

/-! ## Sections -/

/-- What a section of a call leaves to the holder of the lock. -/
structure Sectioned (thread : ι) (shared : Shared ι α) (call : Option (Op α))
    (after : Shared ι α) (next : Resume ι α) : Prop where
  inv : (after.hold thread).Inv
  word : after.word = shared.word
  publisher : after.publisher = shared.publisher
  stay : OthersStay thread shared after
  due : ∀ other ≠ thread, after.Due other → shared.Due other
  fits : next.Fits thread (after.view thread)
  effect : Effect thread shared call after.traffic next.op

theorem unqueued_of_known (known : run.Known thread (shared.view thread).queued)
    (unqueued : run.ticket.queued = false) :
    ∀ direction, thread ∉ (shared.waits direction).map Entry.wait := by
  intro direction member
  have queued := ((known.queued direction).mp member).1
  rw [unqueued] at queued
  cases queued

theorem fails_section (inv : shared.Inv) (known : run.Known thread (shared.view thread).queued)
    (error : Error) :
    Sectioned thread shared (some run.op) (shared.fails thread run error).1
      (shared.fails thread run error).2 := by
  rw [Shared.fails]
  split
  · rename_i queued
    exact ⟨inv.hold, rfl, rfl, fun _ => .stays, fun _ _ => id, ⟨known, queued⟩, .quiet _⟩
  · rename_i unqueued
    exact ⟨(inv.fail run.op error).hold, rfl, rfl, fun _ => .stays, fun _ _ => id,
      unqueued_of_known known (by simpa using unqueued), .fails run.op error⟩

/-- A ticket that has joined its queue, or was queued already. -/
inductive Joins (thread : ι) (shared : Shared ι α) (run : Run ι α) : List (Entry ι) → Prop where
  | already : run.ticket.queued = true → Joins thread shared run (shared.waits run.op.direction)
  | last : run.ticket.queued = false →
      (shared.waits run.op.direction).length < shared.waitCapacity →
      Joins thread shared run (shared.waits run.op.direction ++ [⟨thread, shared.arrivals⟩])

theorem enqueue_cases [DecidableEq ι] (inv : shared.Inv)
    (known : run.Known thread (shared.view thread).queued) (entered : run.entered = true) :
    (∃ waits, run.ticket.enqueue thread shared.waitCapacity shared.arrivals
        (shared.waits run.ticket.direction) =
          .ok (.ok ({ run.ticket with queued := true }, waits)) ∧
      Joins thread shared run waits) ∨
    run.ticket.enqueue thread shared.waitCapacity shared.arrivals
      (shared.waits run.ticket.direction) =
        .ok (.error (.capacity shared.waitCapacity)) := by
  have attached : run.ticket.wait = some thread := by
    rw [known.wait, entered]
    rfl
  rw [known.direction, Ticket.enqueue]
  cases queued : run.ticket.queued with
  | true =>
      have same : { run.ticket with queued := true } = run.ticket := by rw [← queued]
      exact .inl ⟨_, by rw [same]; rfl, .already queued⟩
  | false =>
      rw [if_neg Bool.false_ne_true, attached, expect_some, ok_bind, ensure_of rfl, ok_bind]
      by_cases full : (shared.waits run.op.direction).length = shared.waitCapacity
      · rw [if_pos full]
        exact .inr rfl
      · rw [if_neg full]
        have room := Nat.lt_of_le_of_ne (inv.waiting run.op.direction) full
        exact .inl ⟨_, by simp [attached, pure, Except.pure], .last queued room⟩

/-! ## Joining a queue -/

namespace Joins

variable {waits : List (Entry ι)}

theorem length (joins : Joins thread shared run waits) (inv : shared.Inv) :
    waits.length ≤ shared.waitCapacity := by
  cases joins with
  | already => exact inv.waiting _
  | last _ room =>
      rw [List.length_append]
      exact room

theorem turns (joins : Joins thread shared run waits) (inv : shared.Inv)
    (known : run.Known thread (shared.view thread).queued) :
    Turns Entry.wait Entry.arrival waits (shared.arrivals + 1) := by
  cases joins with
  | already => exact (inv.turns _).mono (Nat.le_succ _)
  | last unqueued =>
      refine (inv.turns run.op.direction).join ?_ rfl
      exact unqueued_of_known known unqueued _

theorem mem (joins : Joins thread shared run waits)
    (known : run.Known thread (shared.view thread).queued) (other : ι) :
    other ∈ waits.map Entry.wait ↔
      other = thread ∨ other ∈ (shared.waits run.op.direction).map Entry.wait := by
  cases joins with
  | already queued =>
      refine ⟨.inr, ?_⟩
      rintro (rfl | member)
      · exact known.mem.mpr queued
      · exact member
  | last =>
      rw [List.map_append, List.mem_append, Or.comm]
      simp

theorem joins (joins : Joins thread shared run waits) :
    Turns.Step Entry.wait thread (shared.waits run.op.direction) waits := by
  cases joins with
  | already => exact .stays
  | last => exact .joins _ rfl

/-- A ticket that joins is first only in an empty queue. -/
theorem front (joins : Joins thread shared run waits)
    (first : waits.head?.map Entry.wait = some other) :
    shared.front run.op.direction = some other ∨
      other = thread ∧ shared.waits run.op.direction = [] := by
  cases joins with
  | already => exact .inl first
  | last =>
      rw [Shared.front]
      cases same : shared.waits run.op.direction with
      | nil =>
          rw [same] at first
          exact .inr ⟨(Option.some.inj first).symm, rfl⟩
      | cons =>
          rw [same] at first
          exact .inl first

end Joins

namespace Shared

theorem setWaits_self (direction : Direction) (waits : List (Entry ι)) :
    (shared.setWaits direction waits).waits direction = waits := Function.update_self ..

theorem setWaits_of_ne {direction direction' : Direction} (differ : direction' ≠ direction)
    (waits : List (Entry ι)) :
    (shared.setWaits direction waits).waits direction' = shared.waits direction' :=
  Function.update_of_ne differ ..

/-- A ticket waits in its queue. -/
def queue [DecidableEq ι] (shared : Shared ι α) (thread : ι) (direction : Direction)
    (waits : List (Entry ι)) (timed : Bool) : Shared ι α :=
  { shared.setWaits direction waits with
    arrivals := shared.arrivals + 1
    timed := Function.update shared.timed thread timed }

end Shared

section Queue

variable [DecidableEq ι] {waits : List (Entry ι)} {timed : Bool}

theorem Joins.queued (joins : Joins thread shared run waits)
    (known : run.Known thread (shared.view thread).queued) (other : ι) (direction : Direction) :
    other ∈ ((shared.queue thread run.op.direction waits timed).waits direction).map Entry.wait ↔
      other = thread ∧ direction = run.op.direction ∨
        other ∈ (shared.waits direction).map Entry.wait := by
  change other ∈ ((shared.setWaits run.op.direction waits).waits direction).map _ ↔ _
  by_cases own : direction = run.op.direction
  · rw [own, Shared.setWaits_self, joins.mem known]
    simp
  · rw [Shared.setWaits_of_ne own]
    simp [own]

theorem Joins.front_queue (joins : Joins thread shared run waits) {direction : Direction}
    (first : (shared.queue thread run.op.direction waits timed).front direction = some other) :
    shared.front direction = some other ∨
      other = thread ∧ direction = run.op.direction ∧ shared.waits direction = [] := by
  change ((shared.setWaits run.op.direction waits).waits direction).head?.map _ = _ at first
  by_cases own : direction = run.op.direction
  · rw [own, Shared.setWaits_self] at first
    rw [own]
    exact (joins.front first).imp_right fun mine => ⟨mine.1, rfl, mine.2⟩
  · rw [Shared.setWaits_of_ne own] at first
    exact .inl first

theorem Joins.inv (joins : Joins thread shared run waits) (inv : shared.Inv)
    (known : run.Known thread (shared.view thread).queued) :
    (shared.queue thread run.op.direction waits timed).Inv := by
  refine { inv with turns := fun direction => ?_, waiting := fun direction => ?_ }
  · change Turns _ _ ((shared.setWaits run.op.direction waits).waits direction) _
    by_cases own : direction = run.op.direction
    · rw [own, Shared.setWaits_self]
      exact joins.turns inv known
    · rw [Shared.setWaits_of_ne own]
      exact (inv.turns direction).mono (Nat.le_succ _)
  · change ((shared.setWaits run.op.direction waits).waits direction).length ≤ _
    by_cases own : direction = run.op.direction
    · rw [own, Shared.setWaits_self]
      exact joins.length inv
    · rw [Shared.setWaits_of_ne own]
      exact inv.waiting direction

end Queue

/-- The call cannot go on, as far as its queue lets it. -/
def Stuck (thread : ι) (shared : Shared ι α) (direction : Direction) : Prop :=
  shared.waits direction = [] ∨ shared.front direction = some thread → ¬ shared.Ready direction

theorem queue_section [DecidableEq ι] {waits : List (Entry ι)} (inv : shared.Inv)
    (known : run.Known thread (shared.view thread).queued) (entered : run.entered = true)
    (joins : Joins thread shared run waits) (timed : Bool)
    (stuck : Stuck thread shared run.op.direction) :
    Sectioned thread shared (some run.op)
      (shared.queue thread run.op.direction waits timed)
      (.park { run with ticket := { run.ticket with queued := true } }) where
  inv := (joins.inv inv known).hold
  word := rfl
  publisher := rfl
  stay direction := by
    change Turns.Step _ _ _ ((shared.setWaits run.op.direction waits).waits direction)
    by_cases own : direction = run.op.direction
    · rw [own, Shared.setWaits_self]
      exact joins.joins
    · rw [Shared.setWaits_of_ne own]
      exact .stays
  due := by
    rintro other differ ⟨quiet, direction, first, ready⟩
    have first := (joins.front_queue first).resolve_right fun mine => differ mine.1
    exact ⟨quiet, direction, first, ready⟩
  fits := by
    refine ⟨⟨known.direction, fun direction => ?_, known.wait, fun _ => entered⟩, rfl, ?_⟩
    · -- the thread is in the queue of its own direction only
      change thread ∈ (((shared.queue thread run.op.direction waits timed).waits
        direction).map _) ↔ _
      rw [joins.queued known]
      have elsewhere := known.queued direction
      simp only [Shared.view] at elsewhere
      simp only [true_and, elsewhere]
      exact ⟨fun queued => queued.elim id And.right, .inl⟩
    · -- a ticket that is first after it has joined cannot go on
      rintro ⟨-, direction, first, ready⟩
      have member := (joins.queued known thread direction).mp (Shared.front_mem first)
      have own : direction = run.op.direction := by
        rcases member with ⟨-, own⟩ | queued
        · exact own
        · exact ((known.queued direction).mp queued).2
      subst own
      refine absurd ready (stuck ?_)
      exact (joins.front_queue first).symm.imp (fun mine => mine.2.2) id
  effect := .quiet _

/-- A call that cannot be completed fails, or its ticket waits. -/
theorem await_section [DecidableEq ι] (inv : shared.Inv)
    (known : run.Known thread (shared.view thread).queued) (timed : Bool)
    (stuck : Stuck thread shared run.op.direction) :
    ∃ after next, shared.await thread run timed = .ok (after, next) ∧
      Sectioned thread shared (some run.op) after next := by
  rw [Shared.await]
  by_cases tries : run.blocking = false
  · rw [if_pos tries]
    exact ⟨_, _, rfl, fails_section inv known _⟩
  rw [if_neg tries]
  by_cases outside : run.entered = false
  · rw [if_pos outside]
    exact ⟨_, _, rfl, inv.hold, rfl, rfl, fun _ => .stays, fun _ _ => id, ⟨known, outside⟩,
      .quiet _⟩
  rw [if_neg outside]
  have entered : run.entered = true := by simpa using outside
  rcases enqueue_cases inv known entered with ⟨waits, ran, joins⟩ | ran
  · rw [ran, ok_bind, known.direction]
    exact ⟨_, _, rfl, queue_section inv known entered joins timed stuck⟩
  · rw [ran, ok_bind]
    exact ⟨_, _, rfl, fails_section inv known _⟩

/-! ## Leaving a queue -/

/-- The thread has left the queues, and nobody else has. -/
structure Leaves (thread : ι) (shared after : Shared ι α) : Prop where
  turns : ∀ direction, Turns Entry.wait Entry.arrival (after.waits direction) shared.arrivals
  waiting : ∀ direction, (after.waits direction).length ≤ shared.waitCapacity
  stay : OthersStay thread shared after
  absent : ∀ direction, thread ∉ (after.waits direction).map Entry.wait

theorem leaves_setWaits {waits : List (Entry ι)} (inv : shared.Inv)
    (known : run.Known thread (shared.view thread).queued)
    (fewer : waits.Sublist (shared.waits run.op.direction))
    (leaves : Turns.Step Entry.wait thread (shared.waits run.op.direction) waits)
    (absent : thread ∉ waits.map Entry.wait) :
    Leaves thread shared (shared.setWaits run.op.direction waits) where
  turns direction := by
    by_cases own : direction = run.op.direction
    · rw [own, Shared.setWaits_self]
      exact (inv.turns _).sublist fewer
    · rw [Shared.setWaits_of_ne own]
      exact inv.turns direction
  waiting direction := by
    by_cases own : direction = run.op.direction
    · rw [own, Shared.setWaits_self]
      exact Nat.le_trans fewer.length_le (inv.waiting _)
    · rw [Shared.setWaits_of_ne own]
      exact inv.waiting direction
  stay direction := by
    by_cases own : direction = run.op.direction
    · rw [own, Shared.setWaits_self]
      exact leaves
    · rw [Shared.setWaits_of_ne own]
      exact .stays
  absent direction := by
    by_cases own : direction = run.op.direction
    · rw [own, Shared.setWaits_self]
      exact absent
    · rw [Shared.setWaits_of_ne own]
      exact fun queued => own ((known.queued direction).mp queued).2

/-- A call returns with its result after it has left its queue and woken the fronts. -/
theorem Leaves.returns [DecidableEq ι] {direction : Direction} {waits : List (Entry ι)}
    {values : List α} {result : Result α} {call : Option (Op α)}
    (leaves : Leaves thread shared (shared.setWaits direction waits)) (inv : shared.Inv)
    (buffered : values.length ≤ shared.capacity)
    (fifo : Fifo (shared.sent ++ (sentValue (thread, result)).toList)
      (shared.received ++ (receivedValue (thread, result)).toList) values shared.destroyed)
    (effect : Effect thread shared call { shared.traffic with
      values, results := shared.results ++ [(thread, result)] } none) :
    Sectioned thread shared call
      (({ shared.setWaits direction waits with values }.wakeFronts).finish thread result)
      .rest where
  inv := { inv with
    turns := leaves.turns
    waiting := leaves.waiting
    unlocked := Shared.hold_locked
    buffered := buffered
    fifo := by
      rw [← Shared.sent_finish, ← Shared.received_finish] at fifo
      exact fifo }
  word := rfl
  publisher := rfl
  stay := leaves.stay
  due _ _ due := absurd due Shared.not_due_wakeFronts
  fits := leaves.absent
  effect := effect

theorem TakesTurn.turn {rest : List (Entry ι)} {direction : Direction}
    (turn : TakesTurn thread run (shared.waits direction) rest) :
    shared.Turn thread direction := by
  rw [Shared.Turn, Shared.front]
  cases waits : shared.waits direction with
  | nil => exact .inl rfl
  | cons =>
      rw [waits] at turn
      cases turn with
      | first _ _ own => exact .inr (congrArg some own)

/-- A ticket takes its turn, and leaves its queue. -/
theorem TakesTurn.section {rest : List (Entry ι)} (inv : shared.Inv)
    (known : run.Known thread (shared.view thread).queued)
    (turn : TakesTurn thread run (shared.waits run.op.direction) rest) :
    Leaves thread shared (shared.setWaits run.op.direction rest) :=
  leaves_setWaits inv known turn.sublist turn.leaves (turn.absent (inv.turns _))

section Calls

variable [DecidableEq ι]

/-- A ticket is dropped. -/
theorem dropTicket_section (inv : shared.Inv)
    (known : run.Known thread (shared.view thread).queued) (queued : run.ticket.queued = true)
    (error : Error) :
    ∃ after, shared.dropTicket thread run error = .ok (after, .rest) ∧
      Sectioned thread shared (some run.op) after .rest := by
  have attached : run.ticket.wait = some thread := by
    rw [known.wait, known.entered queued]
    rfl
  rw [Shared.dropTicket, Ticket.remove, if_neg (by simp [queued]), attached, expect_some,
    known.direction]
  have leaves : Leaves thread shared (shared.setWaits run.op.direction
      ((shared.waits run.op.direction).eraseP fun entry => entry.wait = thread)) := by
    apply leaves_setWaits inv known List.eraseP_sublist
    · refine .leaves _ List.eraseP_sublist fun entry member differ => ?_
      exact (List.mem_eraseP_of_neg (by simpa using differ)).mpr member
    · exact (inv.turns _).not_mem_leave thread
  refine ⟨_, rfl, leaves.returns inv inv.buffered ?_ (.fails run.op error)⟩
  have failed : (shared.finish thread (run.op.fail error)).Inv := inv.fail run.op error
  have fifo := failed.fifo
  rw [Shared.sent_finish, Shared.received_finish] at fifo
  exact fifo

/-- A value is sent when it is the turn of its ticket. -/
theorem send_section (inv : shared.Inv) (known : run.Known thread (shared.view thread).queued)
    {value : α} (op : run.op = .send value) (timed : Bool) :
    ∃ after next, shared.send thread run timed value = .ok (after, next) ∧
      Sectioned thread shared (some run.op) after next := by
  have direction : run.op.direction = .send := by rw [op]; rfl
  rw [Shared.send]
  by_cases ended : shared.closed = true ∨ shared.receivers = 0
  · rw [if_pos ended]
    exact ⟨_, _, rfl, fails_section inv known _⟩
  rw [if_neg ended]
  by_cases room : shared.values.length < shared.capacity
  · rw [if_pos room]
    rcases takeTurn_cases known with ⟨ticket, rest, ran, turn⟩ | ⟨ran, others, behind⟩
    · rw [ran, ok_bind, known.direction]
      have pushed : Fifo (shared.sent ++ [value]) (shared.received ++ [])
          (shared.values ++ [value]) shared.destroyed := by
        have fifo := inv.fifo
        rw [inv.kept fun gone => ended (.inr gone)] at fifo ⊢
        rw [List.append_nil]
        exact fifo.push
      refine ⟨_, _, rfl, (turn.section inv known).returns inv ?_ pushed ?_⟩
      · rw [List.length_append]
        exact room
      · rw [op]
        exact .sends value (direction ▸ turn.turn)
    · rw [ran, ok_bind]
      apply await_section inv known timed
      rintro (none | first)
      · exact absurd none others
      · exact absurd first behind
  · rw [if_neg room]
    apply await_section inv known timed
    rintro - ready
    rw [direction] at ready
    exact ready.elim room ended

/-- The oldest value is received when it is the turn of the ticket. -/
theorem recv_section (inv : shared.Inv) (known : run.Known thread (shared.view thread).queued)
    (op : run.op = .recv) (timed : Bool) :
    ∃ after next, shared.recv thread run timed = .ok (after, next) ∧
      Sectioned thread shared (some run.op) after next := by
  have direction : run.op.direction = .recv := by rw [op]; rfl
  rw [Shared.recv]
  cases values : shared.values with
  | nil =>
      rw [if_pos List.isEmpty_nil]
      change ∃ after next, (if _ ∧ _ then _ else _) = _ ∧ _
      by_cases ended : shared.closed = true ∨ shared.senders = 0
      · rw [if_pos ⟨rfl, ended⟩]
        exact ⟨_, _, rfl, fails_section inv known _⟩
      · rw [if_neg fun ends => ended ends.2]
        apply await_section inv known timed
        rintro - ready
        rw [direction] at ready
        exact ready.elim (fun some => some values) ended
  | cons value held =>
      rw [if_neg (by simp)]
      rcases takeTurn_cases known with ⟨ticket, rest, ran, turn⟩ | ⟨ran, others, behind⟩
      · rw [ran, known.direction]
        have fifo := inv.fifo
        have buffered := inv.buffered
        rw [values] at fifo buffered
        have popped := fifo.pop
        rw [← List.append_nil shared.sent] at popped
        refine ⟨_, _, rfl, (turn.section inv known).returns inv ?_ popped ?_⟩
        · exact Nat.le_of_succ_le buffered
        · rw [op]
          exact .receives value held values (direction ▸ turn.turn)
      · rw [ran, ok_bind]
        change ∃ after next, (if _ ∧ _ then _ else _) = _ ∧ _
        rw [if_neg (by simp)]
        apply await_section inv known timed
        rintro (none | first)
        · exact absurd none others
        · exact absurd first behind

/-- The section of a call. -/
theorem enter_section (inv : shared.Inv) (known : run.Known thread (shared.view thread).queued)
    (timed : Bool) :
    ∃ after next, shared.enterSection thread run timed = .ok (after, next) ∧
      Sectioned thread shared (some run.op) after next := by
  rw [Shared.enterSection]
  split
  · rename_i value op
    exact send_section inv known op timed
  · rename_i op
    exact recv_section inv known op timed

end Calls

/-! ## Endpoints -/

/-- A section of a thread that waits for nothing leaves the queues alone, and notifies
everybody whose call it allows to go on. -/
theorem resting_section (quiet : ∀ direction, thread ∉ (shared.waits direction).map Entry.wait)
    (inv : (after.hold thread).Inv) (word : after.word = shared.word)
    (publisher : after.publisher = shared.publisher) (waits : after.waits = shared.waits)
    (due : ∀ other, after.Due other → shared.Due other)
    (effect : Effect thread shared none after.traffic none) :
    Sectioned thread shared none after .rest where
  inv := inv
  word := word
  publisher := publisher
  stay direction := by
    rw [waits]
    exact .stays
  due other _ := due other
  fits direction queued := quiet direction (waits ▸ queued)
  effect := effect

theorem not_due_of_pending (all : ∀ direction,
    other ∈ (after.waits direction).map Entry.wait → other ∈ after.pending) :
    ¬ after.Due other := by
  rintro ⟨unnotified, direction, first, -⟩
  exact unnotified (all direction (Shared.front_mem first))

theorem close_section (inv : shared.Inv)
    (quiet : ∀ direction, thread ∉ (shared.waits direction).map Entry.wait) :
    Sectioned thread shared none shared.close .rest := by
  refine resting_section quiet { inv with unlocked := Shared.hold_locked } rfl rfl rfl ?_ (.quiet _)
  intro other due
  exact absurd due (not_due_of_pending fun _ => Shared.mem_wakeAll)

theorem cloneSender_section (inv : shared.Inv)
    (quiet : ∀ direction, thread ∉ (shared.waits direction).map Entry.wait) :
    Sectioned thread shared none { shared with senders := shared.senders + 1 } .rest := by
  refine resting_section quiet { inv with unlocked := Shared.hold_locked } rfl rfl rfl ?_ (.quiet _)
  rintro other ⟨unnotified, direction, first, ready⟩
  refine ⟨unnotified, direction, first, ?_⟩
  cases direction with
  | send => exact ready
  | recv => exact ready.imp_right fun ended => .inl (ended.resolve_right (Nat.succ_ne_zero _))

theorem cloneReceiver_section (inv : shared.Inv)
    (quiet : ∀ direction, thread ∉ (shared.waits direction).map Entry.wait)
    (alive : shared.receivers ≠ 0) :
    Sectioned thread shared none { shared with receivers := shared.receivers + 1 } .rest := by
  refine resting_section quiet { inv with
    unlocked := Shared.hold_locked, kept := fun _ => inv.kept alive } rfl rfl rfl ?_ (.quiet _)
  rintro other ⟨unnotified, direction, first, ready⟩
  refine ⟨unnotified, direction, first, ?_⟩
  cases direction with
  | send => exact ready.imp_right fun ended => .inl (ended.resolve_right (Nat.succ_ne_zero _))
  | recv => exact ready

theorem dropSender_section (inv : shared.Inv)
    (quiet : ∀ direction, thread ∉ (shared.waits direction).map Entry.wait) :
    Sectioned thread shared none shared.dropSender .rest := by
  rw [Shared.dropSender]
  by_cases last : shared.senders - 1 = 0
  · rw [if_pos last]
    refine resting_section quiet { inv with unlocked := Shared.hold_locked } rfl rfl rfl ?_
      (.quiet _)
    intro other due
    exact absurd due (not_due_of_pending fun _ => Shared.mem_wakeAll)
  · rw [if_neg last]
    refine resting_section quiet { inv with unlocked := Shared.hold_locked } rfl rfl rfl ?_
      (.quiet _)
    rintro other ⟨unnotified, direction, first, ready⟩
    refine ⟨unnotified, direction, first, ?_⟩
    cases direction with
    | send => exact ready
    | recv => exact ready.imp_right fun ended => .inl (ended.resolve_right last)

/-- The last receiver destroys what is buffered. -/
theorem dropReceiver_section (inv : shared.Inv)
    (quiet : ∀ direction, thread ∉ (shared.waits direction).map Entry.wait)
    (alive : shared.receivers ≠ 0) :
    Sectioned thread shared none shared.dropReceiver .rest := by
  rw [Shared.dropReceiver]
  by_cases last : shared.receivers - 1 = 0
  · rw [if_pos last]
    have one : shared.receivers = 1 := by omega
    refine resting_section quiet { inv with
      unlocked := Shared.hold_locked, buffered := Nat.zero_le _, fifo := inv.fifo.lose,
      kept := fun some => absurd last some } rfl rfl rfl ?_ (.loses one)
    intro other due
    have woken : ∀ direction, other ∈ (shared.waits direction).map Entry.wait →
        other ∈ (shared.wakeAll).pending := fun _ queued => Shared.mem_wakeAll queued
    exact absurd due (not_due_of_pending woken)
  · rw [if_neg last]
    refine resting_section quiet { inv with
      unlocked := Shared.hold_locked, kept := fun _ => inv.kept alive } rfl rfl rfl ?_ (.quiet _)
    rintro other ⟨unnotified, direction, first, ready⟩
    refine ⟨unnotified, direction, first, ?_⟩
    cases direction with
    | send => exact ready.imp_right fun ended => .inl (ended.resolve_right last)
    | recv => exact ready

end VThread.Channel
