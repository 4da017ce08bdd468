import VThread.Gate.Sections

/-!
# Every step of a gate is sound

The invariant, and what each thread knows, hold in every reachable state.
-/

namespace VThread.Gate

open VThread.Lib VThread.Wait

variable {ι : Type} [DecidableEq ι] {thread : ι} {shared shared' : Shared ι} {pc pc' : Pc ι}
  {choice : Choice ι}

/-- A call of `signal` brings a permit. -/
theorem issue_sound (inv : shared.Inv) (away : (shared.view thread).Away 0) (last : Last) :
    Sound thread shared { shared with
      issued := shared.issued + 1, permits := shared.permits ++ [.carried thread] }
      (.signal last) := by
  refine ⟨{ inv with accounts := inv.accounts.issue thread }, ?_, trivial, ?_,
    fun _ _ _ _ owes => owes.keep rfl rfl⟩
  · have carried : shared.permits.count (.carried thread) = 0 := away.carried
    have selected : shared.permits.count (.selected thread) = 0 := away.selected
    refine ⟨away.idle, away.openCell, away.queued, away.reserved, ?_, ?_⟩
    · simp [Shared.view, List.count_append, selected]
    · simp [Shared.view, List.count_append, carried]
  · intro other differ
    apply View.Move.of_eq
    simp [Shared.view, List.count_append, differ.symm]

theorem start_sound (inv : shared.Inv) (away : (shared.view thread).Away 0)
    {call : Call ι} (taken : call.start thread choice shared = some (shared', pc')) :
    Sound thread shared shared' pc' := by
  cases call with
  | tryTake =>
      cases taken
      exact .still inv ⟨away, trivial⟩ trivial
  | take =>
      rw [Call.start, Option.some.injEq] at taken
      cases taken
      cases choice.failure with
      | some error => exact .still inv away trivial
      | none => exact .still inv ⟨away, trivial⟩ trivial
  | signal =>
      cases taken
      exact issue_sound inv away _
  | broadcast =>
      rw [Call.start, Option.map_eq_some_iff] at taken
      obtain ⟨result, broadcasts, equal⟩ := taken
      cases equal
      exact broadcast_sound inv away broadcasts _
  | close =>
      rw [Call.start, Option.map_eq_some_iff] at taken
      obtain ⟨result, closes, equal⟩ := taken
      cases equal
      exact close_sound inv away closes _
  | elsewhere word =>
      rw [Call.start] at taken
      split at taken
      · rename_i idle
        cases taken
        exact elsewhere_sound inv away idle.1 idle.2 _
      · cases taken
  | select =>
      rw [Call.start] at taken
      split at taken
      · rename_i fires
        split at taken
        · rename_i decided
          obtain ⟨active, rfl⟩ := selectGeneration_exchange decided
          cases taken
          exact select_sound inv away fires active _
        · cases taken
      · cases taken
  | query task =>
      rw [Call.start] at taken
      split at taken
      · rename_i decided
        obtain ⟨claimed, rfl⟩ := publication_exchange decided
        cases taken
        exact query_sound inv away claimed _
      · cases taken

theorem tryTake_sound (inv : shared.Inv) {waits spurious : Bool} {stage : TryTake}
    (fits : Fits (shared.view thread) (.tryTake waits stage : Pc ι))
    (taken : stage.step waits spurious shared = (shared', pc')) :
    Sound thread shared shared' pc' := by
  obtain ⟨away, positive⟩ := fits
  have observed : ∀ available, Sound thread shared shared (Pc.observed waits available) := by
    intro available
    rw [Pc.observed]
    split
    · exact .still inv ⟨away, trivial⟩ trivial
    · rename_i some
      exact .still inv ⟨away, some⟩ trivial
  cases stage with
  | start =>
      cases taken
      split
      · exact .still inv away trivial
      · exact .still inv ⟨away, trivial⟩ trivial
  | load =>
      cases taken
      exact observed _
  | exchange =>
      rw [TryTake.step] at taken
      split at taken
      · rename_i found
        cases taken
        obtain ⟨rfl, -⟩ := found
        exact succeed_sound inv away positive
      · cases taken
        exact observed _
  | recheck =>
      cases taken
      split
      · exact .still inv away trivial
      · split
        · exact .still inv away trivial
        · exact .still inv away trivial

/-- A section of `signal`, by what it finds. -/
theorem signal_sound (inv : shared.Inv) (away : (shared.view thread).Away 1) {ends : Bool}
    (taken : shared.signal thread = some (shared', ends)) (last : Last) :
    Sound thread shared shared' (if ends then .rest last else .signal last) := by
  rw [Shared.signal] at taken
  split at taken
  · rename_i closed
    cases taken
    exact dropped_sound inv away .discarded shared.available (by simp) (by simp) (by simp [closed])
      (inv.shut closed).1 (by simp) (by simp) last
  · rename_i isOpen
    have isOpen := (Bool.not_eq_true _).mp isOpen
    split at taken
    · rename_i empty
      cases taken
      rw [Shared.storePermit]
      split
      · rename_i room
        exact dropped_sound inv away .stored (shared.available + 1) (by simp) (by simp) (by simp)
          empty (fun _ => isOpen) (by simp) last
      · exact dropped_sound inv away .coalesced shared.available (by simp) (by simp) (by simp)
          empty (by simp) (by simp) last
    · rename_i entry entries split
      split at taken
      · cases taken
      · rename_i next offer
        cases taken
        exact selected_sound inv away split (offered offer) last
      · rename_i next offer
        cases taken
        obtain ⟨-, unbound, refuses⟩ := refused offer
        exact passed_sound inv away split unbound refuses last

/-- Every step is sound. -/
theorem step_sound (inv : shared.Inv) (fits : Fits (shared.view thread) pc)
    (owing : Owing shared thread pc)
    (taken : step thread choice shared pc = some (shared', pc')) :
    Sound thread shared shared' pc' := by
  cases pc with
  | rest last => exact start_sound inv fits taken
  | tryTake => exact tryTake_sound inv fits (Option.some.inj taken)
  | enter =>
      rw [step, Option.some.injEq] at taken
      have recycled := recycle_sound inv fits
      split at taken
      · cases taken
        exact .still inv fits trivial
      · split at taken
        · rename_i decided
          rw [decided] at recycled
          cases taken
          exact recycled
        · rename_i decided
          rw [decided] at recycled
          cases taken
          exact recycled
        · cases taken
          exact .still inv fits trivial
  | reserve =>
      rw [step, Option.some.injEq] at taken
      split at taken
      · rename_i reserves
        cases taken
        exact reserve_sound inv fits reserves
      · cases taken
        exact .still inv fits.1 trivial
  | subscribe =>
      rw [step] at taken
      by_cases closed : shared.closed = true
      · obtain ⟨subscribes, sound⟩ := refused_sound inv fits choice.timed closed
        rw [subscribes] at taken
        cases taken
        exact sound
      · have isOpen := (Bool.not_eq_true _).mp closed
        by_cases none : shared.available = 0
        · obtain ⟨queued, subscribes, sound⟩ := queued_sound inv fits choice.timed isOpen none
          rw [subscribes] at taken
          cases taken
          exact sound
        · obtain ⟨granted, subscribes, sound⟩ :=
            granted_sound inv fits choice.timed isOpen none
          rw [subscribes] at taken
          cases taken
          exact sound
  | waiting stage =>
      rw [step, Option.map_eq_some_iff] at taken
      obtain ⟨⟨word, next⟩, parks, equal⟩ := taken
      have sound := waiting_sound inv fits parks
      cases next with
      | stay stage' =>
          cases equal
          exact sound
      | returns result =>
          cases result <;> cases equal <;> exact sound
      | panics =>
          cases equal
          exact sound
  | check =>
      obtain ⟨status, ended, keeps⟩ := fits
      rw [step, Option.some.injEq] at taken
      split at taken
      · cases taken
        exact .still inv ⟨status, keeps⟩ trivial
      · cases taken
        exact .still inv ⟨status, ended, keeps⟩ trivial
  | loadClosed =>
      obtain ⟨status, ended, keeps⟩ := fits
      rw [step, Option.some.injEq] at taken
      cases taken
      split
      · exact .still inv ⟨status, keeps⟩ trivial
      · rename_i isOpen
        -- the gate is open, so that the ticket was selected and not closed
        cases status with
        | granted selection => exact .still inv ⟨selection, keeps⟩ trivial
        | shut => exact absurd (keeps.stands.closed rfl) isOpen
        | queued => exact ended.elim
        | lost => exact ended.elim
  | takeResource =>
      obtain ⟨selection, keeps⟩ := fits
      obtain ⟨decided, sound⟩ := takeResource_sound inv keeps
      rw [step, decided] at taken
      cases taken
      exact sound
  | complete selection =>
      obtain ⟨releases, sound⟩ := complete_sound inv fits
      rw [step, releases] at taken
      cases taken
      cases selection <;> exact sound
  | dropTicket error =>
      obtain ⟨dropped, selection, drops, sound⟩ := dropTicket_sound inv fits
      rw [step, drops] at taken
      cases taken
      exact sound
  | dropClosed =>
      obtain ⟨leaves, closes⟩ := fits
      rw [step, Option.some.injEq] at taken
      cases taken
      split
      · exact .still inv leaves trivial
      · rename_i isOpen
        refine .still inv ⟨leaves, ?_⟩ trivial
        exact (Bool.not_eq_true _).mp fun closed => isOpen (closes closed)
  | reset _ error =>
      have resets := reset_sound inv fits error
      rw [step] at taken
      split at taken
      · rename_i decided
        rw [decided] at resets
        cases taken
        exact resets
      · rename_i decided
        rw [decided] at resets
        cases taken
        exact resets
      · rename_i decided decided'
        split at resets
        · rename_i same
          exact absurd same decided
        · rename_i next won same
          exact absurd same (decided' next won)
        · exact resets.elim
  | release =>
      obtain ⟨releases, sound⟩ := release_sound inv fits
      rw [step, releases, Option.some.injEq] at taken
      dsimp only [checked] at taken
      split at sound
      · rename_i permit
        rw [if_pos permit] at taken
        cases taken
        exact sound
      · rename_i other
        rw [if_neg other] at taken
        cases taken
        exact sound
  | signal last =>
      rw [step, Option.map_eq_some_iff] at taken
      obtain ⟨⟨signalled, ends⟩, signals, equal⟩ := taken
      have sound := signal_sound inv fits signals last
      cases ends <;> cases equal <;> exact sound
  | publish _ _ last =>
      obtain ⟨published, publishes, sound⟩ := publish_sound inv fits owing last
      rw [step, publishes] at taken
      cases taken
      exact sound
  | panicked => exact fits.elim

/-- The invariant and what each thread knows hold in every reachable state. -/
theorem reachable_inv {available maximum : Nat}
    {state : Threads ι (Shared ι) (Pc ι)}
    (reachable : (program available maximum).system.Reachable state) :
    state.shared.Inv ∧ ∀ thread, Fits (state.shared.view thread) (state.locals thread) ∧
      Owing state.shared thread (state.locals thread) := by
  refine @Program.invariant ι _ _ _ (program available maximum) Shared.Inv
    (fun thread shared pc => Fits (shared.view thread) pc ∧ Owing shared thread pc)
    ?_ ?_ ?_ state reachable
  · rintro shared ⟨capacity, positive, rfl⟩
    refine ⟨?_, fun thread => ⟨⟨rfl, rfl, by simp [Shared.view, Shared.new], by
      simp [Shared.view, Shared.new], ?_, ?_⟩, trivial⟩⟩
    · exact {
        waits := .nil
        sorted := .nil
        arrived := by rintro _ ⟨⟩
        shut := by rintro ⟨⟩
        idle := fun waiting => absurd rfl waiting
        accounts := .new available
        tickets := .nil
        outstanding := rfl
        capacity := Nat.zero_le _
        active := by rintro _ ⟨⟩ }
    · simp [Shared.view, Shared.new, List.count_replicate]
    · simp [Shared.view, Shared.new, List.count_replicate]
  · rintro thread shared pc shared' pc' inv ⟨fits, owing⟩ ⟨choice, taken⟩
    have sound := step_sound inv fits owing taken
    exact ⟨sound.inv, sound.fits, sound.owing⟩
  · rintro thread other shared pc otherPc shared' pc' differ inv ⟨fits, owing⟩
      ⟨otherFits, otherOwing⟩ ⟨choice, taken⟩
    have sound := step_sound inv fits owing taken
    refine ⟨otherFits.move (sound.moves other differ), ?_⟩
    cases otherPc with
    | publish task claimed last => exact sound.owes other differ task claimed otherOwing
    | _ => trivial

end VThread.Gate
