import VThread.Gate.Flow

/-!
# The balance of a gate

Where the permits of a gate are in a reachable state, and who has a ticket.
-/

namespace VThread.Gate

open VThread.Lib VThread.Wait

variable {ι : Type} [DecidableEq ι] {thread : ι} {shared shared' : Shared ι} {pc pc' : Pc ι}
  {view : View} {available maximum : Nat} {state : Threads ι (Shared ι) (Pc ι)}

/-! ## Threads -/

def Pc.rests : Pc ι → Bool
  | .rest _ => true
  | _ => false

/-- Calls with a reservation. -/
def Pc.reserved : Pc ι → Bool
  | .subscribe | .waiting _ | .check | .loadClosed | .takeResource | .complete _
  | .dropTicket _ | .dropClosed _ _ | .reset _ _ | .release _ _ => true
  | _ => false

/-- Calls that carry a permit. -/
def Pc.carries : Pc ι → Bool
  | .signal _ => true
  | _ => false

/-- Calls that take a permit or wait for one. -/
def Pc.taking : Pc ι → Bool
  | .tryTake _ _ | .enter | .reserve => true
  | pc => pc.reserved

/-- The threads that a permit is selected for. -/
def Shared.recipients (shared : Shared ι) : List ι := shared.permits.filterMap Place.recipient?

/-- The threads whose calls carry a permit. -/
def Shared.carriers (shared : Shared ι) : List ι := shared.permits.filterMap Place.carrier?

omit [DecidableEq ι] in
theorem permitsOf_le (selection : Option ResourceSelection) : permitsOf selection ≤ 1 := by
  rcases selection with _ | _ | _ <;> decide

omit [DecidableEq ι] in
/-- A call has a reservation when its view says so. -/
theorem Fits.reserved_iff (fits : Fits view pc) : pc.reserved = true ↔ view.reserved := by
  cases pc with
  | rest | enter | publish | signal => simpa [Pc.reserved] using View.Away.reserved fits
  | tryTake | reserve => simpa [Pc.reserved] using View.Away.reserved fits.1
  | subscribe => simpa [Pc.reserved] using fits.2.2.1
  | waiting stage => simpa [Pc.reserved] using fits.1
  | check | loadClosed =>
      obtain ⟨status, -, keeps⟩ := fits
      simpa [Pc.reserved] using keeps.reserved
  | takeResource =>
      obtain ⟨selection, keeps⟩ := fits
      simpa [Pc.reserved] using keeps.reserved
  | dropTicket error =>
      obtain ⟨status, keeps⟩ := fits
      simpa [Pc.reserved] using keeps.reserved
  | complete | dropClosed | release => simpa [Pc.reserved] using View.Leaves.reserved fits.1
  | reset => simpa [Pc.reserved] using View.Leaves.reserved fits
  | panicked => exact fits.elim

omit [DecidableEq ι] in
/-- At most one permit is selected for a thread, and only for one with a ticket. -/
theorem Fits.selected (fits : Fits view pc) :
    view.selected ≤ 1 ∧ (view.selected ≠ 0 → pc.reserved = true) := by
  cases pc with
  | rest | enter | publish | signal =>
      rw [View.Away.selected fits]
      exact ⟨Nat.zero_le _, fun some => absurd rfl some⟩
  | tryTake | reserve =>
      rw [View.Away.selected fits.1]
      exact ⟨Nat.zero_le _, fun some => absurd rfl some⟩
  | subscribe =>
      rw [fits.2.2.2.1]
      exact ⟨Nat.zero_le _, fun _ => rfl⟩
  | waiting stage =>
      obtain ⟨-, -, status, stands, -⟩ := fits
      exact ⟨stands.selected ▸ permitsOf_le _, fun _ => rfl⟩
  | check | loadClosed =>
      obtain ⟨status, -, keeps⟩ := fits
      exact ⟨keeps.stands.selected ▸ permitsOf_le _, fun _ => rfl⟩
  | takeResource =>
      obtain ⟨selection, keeps⟩ := fits
      exact ⟨keeps.stands.selected ▸ permitsOf_le _, fun _ => rfl⟩
  | dropTicket error =>
      obtain ⟨status, keeps⟩ := fits
      exact ⟨keeps.stands.selected ▸ permitsOf_le _, fun _ => rfl⟩
  | complete | dropClosed | release =>
      exact ⟨View.Leaves.selected fits.1 ▸ permitsOf_le _, fun _ => rfl⟩
  | reset => exact ⟨View.Leaves.selected fits ▸ permitsOf_le _, fun _ => rfl⟩
  | panicked => exact fits.elim

omit [DecidableEq ι] in
/-- Exactly the calls of `signal` carry a permit. -/
theorem Fits.carried (fits : Fits view pc) :
    view.carried = if pc.carries then 1 else 0 := by
  cases pc with
  | rest | enter | publish | signal => exact View.Away.carried fits
  | tryTake | reserve => exact View.Away.carried fits.1
  | subscribe => exact fits.2.2.2.2
  | waiting stage =>
      obtain ⟨-, -, status, stands, -⟩ := fits
      exact stands.carried
  | check | loadClosed =>
      obtain ⟨status, -, keeps⟩ := fits
      exact keeps.stands.carried
  | takeResource =>
      obtain ⟨selection, keeps⟩ := fits
      exact keeps.stands.carried
  | dropTicket error =>
      obtain ⟨status, keeps⟩ := fits
      exact keeps.stands.carried
  | complete | dropClosed | release => exact View.Leaves.carried fits.1
  | reset => exact View.Leaves.carried fits
  | panicked => exact fits.elim

/-! ## Reachable states -/

/-- Where the permits are, who waits in which order, and who has a reservation. -/
structure Balance (state : Threads ι (Shared ι) (Pc ι)) : Prop where
  /-- The permits there were at first and those that `signal` has brought are stored, taken,
  merged, dropped, selected or carried. -/
  issued : state.shared.issued = state.shared.available + state.shared.successes +
    state.shared.permits.count .coalesced + state.shared.permits.count .discarded +
      state.shared.recipients.length + state.shared.carriers.length
  /-- An open gate drops no permit. -/
  kept : state.shared.closed = false → state.shared.permits.count .discarded = 0
  recipients : state.shared.recipients.Nodup ∧
    ∀ thread ∈ state.shared.recipients, (state.locals thread).reserved = true
  carriers : state.shared.carriers.Nodup ∧
    ∀ thread, thread ∈ state.shared.carriers ↔ (state.locals thread).carries = true
  /-- No permit is stored while a ticket is queued. -/
  idle : state.shared.entries ≠ [] → state.shared.available = 0
  /-- The queue is in the order of arrival, and has at most one entry of a thread. -/
  ordered : (state.shared.entries.map Entry.arrival).Pairwise (· < ·)
  queued : (state.shared.entries.map Entry.wait).Nodup ∧
    ∀ entry ∈ state.shared.entries, (state.locals entry.wait).reserved = true
  bounded : state.shared.outstanding ≤ state.shared.capacity
  counted : ∃ tickets : List ι, tickets.Nodup ∧ state.shared.outstanding = tickets.length ∧
    ∀ thread, thread ∈ tickets ↔ (state.locals thread).reserved = true
  /-- No assertion fails. -/
  sound : ∀ thread message, state.locals thread ≠ .panicked message

theorem balance (inv : state.shared.Inv)
    (fits : ∀ thread, Fits (state.shared.view thread) (state.locals thread)) :
    Balance state where
  issued := by
    have all := length_permits state.shared.permits
    rw [inv.accounts.stored, inv.accounts.taken, inv.accounts.issued] at all
    exact all
  kept := inv.accounts.kept
  recipients := by
    have counts := fun thread => count_recipients state.shared.permits thread
    constructor
    · refine List.nodup_iff_count_le_one.mpr fun thread => ?_
      rw [Shared.recipients, counts]
      exact (fits thread).selected.1
    · intro thread member
      refine (fits thread).selected.2 (Nat.ne_of_gt ?_)
      have positive := List.count_pos_iff.mpr member
      rwa [Shared.recipients, counts] at positive
  carriers := by
    have counts : ∀ thread, state.shared.carriers.count thread =
        if (state.locals thread).carries then 1 else 0 := fun thread =>
      (count_carriers state.shared.permits thread).trans (fits thread).carried
    constructor
    · refine List.nodup_iff_count_le_one.mpr fun thread => ?_
      rw [counts]
      split <;> decide
    · intro thread
      rw [← List.count_pos_iff, counts]
      split
      · rename_i carries
        exact iff_of_true Nat.one_pos carries
      · rename_i other
        exact iff_of_false (Nat.lt_irrefl 0) other
  idle := inv.idle
  ordered := inv.sorted
  queued := by
    refine ⟨inv.waits, fun entry member => ?_⟩
    have queued : (state.shared.view entry.wait).queued := List.mem_map_of_mem member
    obtain ⟨stage, waits⟩ | ⟨error, drops⟩ := (fits entry.wait).queued queued
    · rw [waits]
      rfl
    · rw [drops]
      rfl
  bounded := inv.capacity
  counted := ⟨state.shared.tickets, inv.tickets, inv.outstanding,
    fun thread => (fits thread).reserved_iff.symm⟩
  sound thread message panicked := by
    have fit := fits thread
    rw [panicked] at fit
    exact fit

theorem reachable_balance
    (reachable : (program available maximum).system.Reachable state) : Balance state := by
  obtain ⟨inv, known⟩ := reachable_inv reachable
  exact balance inv fun thread => (known thread).1

/-- Every step from a reachable state makes of the permits what its call says. -/
theorem reachable_flow
    (reachable : (program available maximum).system.Reachable state) {choice : Choice ι}
    (taken : step thread choice state.shared (state.locals thread) = some (shared', pc')) :
    Flow thread choice.call state.shared shared' (state.locals thread) pc' := by
  obtain ⟨inv, known⟩ := reachable_inv reachable
  exact flow inv (known thread).1 (known thread).2 taken

omit [DecidableEq ι] in
theorem Call.start_closed [DecidableEq ι] (closes : shared.close = some shared') :
    shared'.maximum = shared.maximum ∧ shared'.successes = shared.successes ∧
      shared'.issued = shared.issued ∧ shared'.permits = shared.permits.map fun place =>
        if place = .stored then .discarded else place := by
  rw [Shared.close, Option.map_eq_some_iff] at closes
  obtain ⟨word, -, rfl⟩ := closes
  exact ⟨rfl, rfl, rfl, rfl⟩

/-- No step changes the number of permits that a gate can store. -/
theorem Flow.maximum_eq {call : Call ι} (flow : Flow thread call shared shared' pc pc') :
    shared'.maximum = shared.maximum := by
  cases flow with
  | start starts =>
      cases starts with
      | signal same => rw [same]
      | broadcast broadcasts => exact broadcasts.still.maximum
      | close closes => exact (Call.start_closed closes).1
      | other _ _ _ still => exact still.maximum
  | take _ same => rw [same]; rfl
  | retry same => rw [same]
  | subscribe subscribes =>
      cases subscribes with
      | closed _ still => exact still.maximum
      | granted _ _ _ _ _ _ _ same => exact same
      | queued _ _ still => exact still.maximum
  | complete selection same => cases selection <;> rw [same] <;> rfl
  | pass _ same => rw [same]; rfl
  | release _ _ same => rw [same]; rfl
  | signal signals => cases signals <;> rfl
  | still _ still => exact still.maximum

/-- A permit is merged only with a stored one, while no ticket is queued. -/
theorem Flow.coalesces {call : Call ι} (flow : Flow thread call shared shared' pc pc')
    (merged : shared'.permits.count .coalesced ≠ shared.permits.count .coalesced) :
    pc.carries = true ∧ shared.closed = false ∧ shared.entries = [] ∧
      shared.maximum ≤ shared.available := by
  have moved : ∀ source target : Place ι, source ≠ .coalesced → target ≠ .coalesced →
      (shared.permits.replace source target).count .coalesced = shared.permits.count .coalesced :=
    fun source target fromOther toOther => count_move_other fromOther.symm toOther.symm
  cases flow with
  | start starts =>
      cases starts with
      | signal same => exact absurd (by rw [same]; simp [List.count_append]) merged
      | broadcast broadcasts => exact absurd (by rw [broadcasts.still.permits]) merged
      | close closes =>
          refine absurd ?_ merged
          rw [(Call.start_closed closes).2.2.2]
          exact count_close shared.permits (by simp) (by simp)
      | other _ _ _ still => exact absurd (by rw [still.permits]) merged
  | take _ same => exact absurd (by rw [same]; exact moved _ _ (by simp) (by simp)) merged
  | retry same => exact absurd (by rw [same]) merged
  | subscribe subscribes =>
      cases subscribes with
      | closed _ still => exact absurd (by rw [still.permits]) merged
      | granted _ _ same => exact absurd (by rw [same]; exact moved _ _ (by simp) (by simp)) merged
      | queued _ _ still => exact absurd (by rw [still.permits]) merged
  | complete selection same =>
      refine absurd ?_ merged
      cases selection with
      | broadcast => rw [same]; rfl
      | permit =>
          rw [same]
          exact moved _ _ (by simp) (by simp)
  | pass _ same => exact absurd (by rw [same]; exact moved _ _ (by simp) (by simp)) merged
  | release _ _ same => exact absurd (by rw [same]; rfl) merged
  | signal signals =>
      cases signals with
      | discarded => exact absurd (moved _ _ (by simp) (by simp)) merged
      | stored => exact absurd (moved _ _ (by simp) (by simp)) merged
      | coalesced isOpen empty full => exact ⟨rfl, isOpen, empty, full⟩
      | selected => exact absurd (moved _ _ (by simp) (by simp)) merged
      | passed => exact absurd rfl merged
  | still _ still => exact absurd (by rw [still.permits]) merged

theorem reachable_maximum
    (reachable : (program available maximum).system.Reachable state) :
    state.shared.maximum = maximum := by
  induction reachable with
  | initial isInitial =>
      obtain ⟨⟨capacity, -, isNew⟩, -⟩ := isInitial
      rw [isNew]
      rfl
  | step before taken ih =>
      cases taken with
      | mk thread moved =>
          obtain ⟨choice, moved⟩ := moved
          exact (reachable_flow before moved).maximum_eq.trans ih

/-- A step stores a permit only where there is room. -/
theorem Flow.stored {call : Call ι} (flow : Flow thread call shared shared' pc pc')
    (room : shared.available ≤ shared.maximum) : shared'.available ≤ shared'.maximum := by
  rw [flow.maximum_eq]
  cases flow with
  | start starts =>
      cases starts with
      | signal same =>
          rw [same]
          exact room
      | broadcast broadcasts => exact broadcasts.still.available ▸ room
      | close closes =>
          rw [Shared.close, Option.map_eq_some_iff] at closes
          obtain ⟨word, -, rfl⟩ := closes
          exact Nat.zero_le _
      | other _ _ _ still => exact still.available ▸ room
  | take _ same =>
      rw [same]
      exact Nat.le_trans (Nat.sub_le ..) room
  | retry same =>
      rw [same]
      exact room
  | subscribe subscribes =>
      cases subscribes with
      | closed _ still => exact still.available ▸ room
      | granted => omega
      | queued _ _ still => exact still.available ▸ room
  | complete selection same => cases selection <;> rw [same] <;> exact room
  | pass _ same =>
      rw [same]
      exact room
  | release _ _ same =>
      rw [same]
      exact room
  | signal signals =>
      cases signals with
      | stored _ _ less => exact less
      | discarded | coalesced | selected | passed => exact room
  | still _ still => exact still.available ▸ room

theorem reachable_stored (fits : available ≤ maximum)
    (reachable : (program available maximum).system.Reachable state) :
    state.shared.available ≤ maximum := by
  rw [← reachable_maximum reachable]
  induction reachable with
  | initial isInitial =>
      obtain ⟨⟨capacity, -, isNew⟩, -⟩ := isInitial
      rw [isNew]
      exact fits
  | step before taken ih =>
      cases taken with
      | mk thread moved =>
          obtain ⟨choice, moved⟩ := moved
          exact (reachable_flow before moved).stored ih

/-- A call that takes a permit succeeds with a stored one or as a ticket that was selected. -/
theorem taking_succeeds {choice : Choice ι} (taking : pc.taking = true)
    (taken : step thread choice shared pc = some (shared', .rest (.ok ()))) :
    (∃ waits available, pc = .tryTake waits (.exchange available)) ∨
      ∃ selection, pc = .complete selection := by
  cases pc with
  | tryTake waits stage =>
      have taken := Option.some.inj taken
      cases stage with
      | exchange available => exact .inl ⟨waits, available, rfl⟩
      | start =>
          rw [TryTake.step] at taken
          split at taken <;> cases taken
      | load =>
          rw [TryTake.step, Pc.observed] at taken
          split at taken <;> cases taken
      | recheck =>
          rw [TryTake.step] at taken
          split at taken
          · cases taken
          · split at taken <;> cases taken
  | complete selection => exact .inr ⟨selection, rfl⟩
  | enter =>
      rw [step, Option.some.injEq] at taken
      split at taken
      · cases taken
      · split at taken <;> cases taken
  | reserve | check | loadClosed | dropClosed =>
      rw [step, Option.some.injEq] at taken
      split at taken <;> cases taken
  | subscribe =>
      rw [step, Option.map_eq_some_iff] at taken
      obtain ⟨result, -, equal⟩ := taken
      rcases result with message | ⟨subscribed, last⟩
      · cases equal
      · cases last <;> cases equal
  | waiting stage =>
      rw [step, Option.map_eq_some_iff] at taken
      obtain ⟨⟨word, next⟩, -, equal⟩ := taken
      cases next with
      | stay stage' => cases equal
      | returns result => cases result <;> cases equal
      | panics => cases equal
  | takeResource | reset =>
      rw [step] at taken
      split at taken <;> cases taken
  | dropTicket error =>
      rw [step, Option.map_eq_some_iff] at taken
      obtain ⟨⟨dropped, selection⟩, -, equal⟩ := taken
      cases equal
  | release _ error =>
      rw [step, Option.some.injEq] at taken
      cases releases : shared.release thread with
      | error =>
          rw [releases] at taken
          cases taken
      | ok =>
          rw [releases] at taken
          dsimp only [checked] at taken
          split at taken <;> cases taken
  | rest | signal | publish | panicked => cases taking

/-! ## Schedules -/

/-- The steps of a gate as a scheduler. -/
def scheduler (ι : Type) [DecidableEq ι] (available maximum : Nat) :
    (program available maximum : Program ι (Shared ι) (Pc ι)).Scheduler (Choice ι) where
  next := step
  sound _ choice _ _ _ taken := ⟨choice, taken⟩

/-- A resting thread makes a call; any other thread continues, unless a check fails. -/
def calls (call : Call Nat) (failure : Option Error) : Choice Nat :=
  ⟨call, failure, false, false, ⟨none, false, some false, false⟩⟩

/-- A number of steps of one thread. -/
def steps (thread : Nat) (call : Call Nat) (count : Nat) : List (Nat × Choice Nat) :=
  List.replicate count (thread, calls call none)

/-- Threads that rest at a new gate. -/
def unused (available maximum capacity : Nat) : Threads Nat (Shared Nat) (Pc Nat) :=
  ⟨.new available maximum capacity, fun _ => .rest (.ok ())⟩

theorem unused_reachable (available maximum : Nat) {capacity : Nat} (positive : 0 < capacity) :
    (program available maximum).system.Reachable (unused available maximum capacity) :=
  .initial ⟨⟨capacity, positive, rfl⟩, fun _ => rfl⟩

end VThread.Gate
