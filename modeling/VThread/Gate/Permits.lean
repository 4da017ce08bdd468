import VThread.Lib.Ledger

/-!
# Where permits are

Every permit of a gate is at one place.  Calls only move permits, so the numbers of permits at
the places add up to the number of permits there are.
-/

namespace VThread.Gate

open VThread.Lib

/-- Where a permit is: with a call of `signal`, stored, selected for the ticket of a thread,
taken by a successful call, merged with the stored ones, or dropped by a closed gate. -/
inductive Place (ι : Type) where
  | carried (thread : ι)
  | stored
  | selected (thread : ι)
  | taken
  | coalesced
  | discarded
  deriving DecidableEq

namespace Place

variable {ι : Type}

/-- The thread whose call carries the permit. -/
def carrier? : Place ι → Option ι
  | carried thread => some thread
  | _ => none

/-- The thread whose ticket the permit is selected for. -/
def recipient? : Place ι → Option ι
  | selected thread => some thread
  | _ => none

theorem carrier?_eq (place : Place ι) (thread : ι) :
    place.carrier? = some thread ↔ place = carried thread := by
  cases place <;> simp [carrier?]

theorem recipient?_eq (place : Place ι) (thread : ι) :
    place.recipient? = some thread ↔ place = selected thread := by
  cases place <;> simp [recipient?]

end Place

variable {ι : Type} [DecidableEq ι]

/-- Every permit is counted at its place. -/
theorem length_permits (permits : List (Place ι)) :
    permits.length = permits.count .stored + permits.count .taken + permits.count .coalesced +
      permits.count .discarded + (permits.filterMap Place.recipient?).length +
      (permits.filterMap Place.carrier?).length := by
  induction permits with
  | nil => rfl
  | cons place permits ih =>
      cases place <;> simp [List.filterMap_cons, Place.recipient?, Place.carrier?, ih] <;> omega

theorem count_recipients (permits : List (Place ι)) (thread : ι) :
    (permits.filterMap Place.recipient?).count thread = permits.count (.selected thread) :=
  count_holders Place.recipient?_eq permits thread

theorem count_carriers (permits : List (Place ι)) (thread : ι) :
    (permits.filterMap Place.carrier?).count thread = permits.count (.carried thread) :=
  count_holders Place.carrier?_eq permits thread

/-- A close moves no permit that a ticket or a call has. -/
theorem count_close (permits : List (Place ι)) {place : Place ι} (stored : place ≠ .stored)
    (discarded : place ≠ .discarded) :
    (permits.map fun place => if place = .stored then .discarded else place).count place =
      permits.count place := by
  rw [List.count_eq_countP, List.countP_map, List.count_eq_countP]
  apply List.countP_congr
  intro other _
  dsimp only [Function.comp]
  split
  · rename_i same
    simp [same, stored.symm, discarded.symm]
  · rfl

/-- The ledger agrees with the counters of a gate. -/
structure Accounts (available successes issued : Nat) (closed : Bool)
    (permits : List (Place ι)) : Prop where
  stored : permits.count .stored = available
  taken : permits.count .taken = successes
  /-- An open gate drops no permit. -/
  kept : closed = false → permits.count .discarded = 0
  issued : permits.length = issued

namespace Accounts

variable {available successes issued : Nat} {closed : Bool} {permits : List (Place ι)}

theorem new (available : Nat) :
    Accounts available 0 available false (List.replicate available (.stored : Place ι)) where
  stored := by simp
  taken := by simp [List.count_replicate]
  kept _ := by simp [List.count_replicate]
  issued := List.length_replicate

/-- A call of `signal` brings a permit. -/
theorem issue (accounts : Accounts available successes issued closed permits) (thread : ι) :
    Accounts available successes (issued + 1) closed (permits ++ [.carried thread]) where
  stored := by simpa [List.count_append] using accounts.stored
  taken := by simpa [List.count_append] using accounts.taken
  kept isOpen := by simpa [List.count_append] using accounts.kept isOpen
  issued := by simp [accounts.issued]

/-- A permit moves, but not back from a call that has taken it. -/
theorem move (accounts : Accounts available successes issued closed permits)
    {source target : Place ι} (member : source ∈ permits)
    (unsettled : source ≠ .taken ∧ source ≠ .discarded)
    (kept : closed = false → target ≠ .discarded) :
    Accounts (available + (if target = .stored then 1 else 0) - if source = .stored then 1 else 0)
      (successes + if target = .taken then 1 else 0) issued closed
      (permits.replace source target) where
  stored := by
    rw [List.count_replace, ← accounts.stored]
    simp [member]
  taken := by
    rw [List.count_replace, ← accounts.taken]
    simp [member, unsettled.1]
  kept isOpen := by
    rw [count_move_other unsettled.2.symm (kept isOpen).symm]
    exact accounts.kept isOpen
  issued := by
    rw [List.length_replace]
    exact accounts.issued

/-- A close drops the stored permits. -/
theorem close (accounts : Accounts available successes issued closed permits) :
    Accounts 0 successes issued true
      (permits.map fun place => if place = .stored then .discarded else place) where
  stored := by
    rw [List.count_eq_zero]
    intro member
    obtain ⟨place, -, mapped⟩ := List.mem_map.mp member
    split at mapped
    · cases mapped
    · rename_i other
      exact other mapped
  taken := by
    rw [count_close permits (by simp) (by simp)]
    exact accounts.taken
  kept := nofun
  issued := by
    rw [List.length_map]
    exact accounts.issued

end Accounts

end VThread.Gate
