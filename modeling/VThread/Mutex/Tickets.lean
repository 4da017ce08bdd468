import VThread.Mutex.Steps

/-!
# Steps of the ticket queue

Reservations, the queue sections and the handoff slot.
-/

namespace VThread.Mutex

open VThread.Lib VThread.Wait

variable {ι : Type} [DecidableEq ι] {thread other task : ι} {shared shared' : Shared ι}
  {pc pc' : Pc ι}

/-! ## Reservations -/

theorem reserve_sound (inv : shared.Inv)
    (fits : Fits (shared.view thread) (.reserve : Pc ι))
    (reserves : shared.reserve thread = .ok shared') :
    Sound thread shared shared' .subscribe := by
  obtain ⟨⟨_, queued, stands, absent⟩, fresh⟩ := fits
  rw [Shared.reserve] at reserves
  split at reserves
  · rename_i room
    cases reserves
    refine ⟨?_, ⟨fresh, queued, stands, List.mem_cons_self⟩, trivial, ?_,
      fun _ _ _ _ owes => owes, .same⟩
    · exact { inv with
        tickets := List.nodup_cons.mpr ⟨absent, inv.tickets⟩
        outstanding := congrArg (· + 1) inv.outstanding
        capacity := room }
    · intro other differ
      apply View.Move.of_eq
      simp [Shared.view, differ]
  · cases reserves

/-- The shared state after a reservation has been given back. -/
def Shared.retired (shared : Shared ι) (thread : ι) : Shared ι :=
  { shared with
    outstanding := shared.outstanding - 1, tickets := shared.tickets.erase thread }

theorem view_retired_self (inv : shared.Inv) :
    (shared.retired thread).view thread = { shared.view thread with reserved := False } := by
  simp [Shared.view, Shared.retired, inv.tickets.mem_erase_iff]

theorem view_retired (differ : other ≠ thread) :
    (shared.retired thread).view other = shared.view other := by
  simp [Shared.view, Shared.retired, List.mem_erase_of_ne differ]

/-- Who has a reservation can give it back. -/
theorem retire_sound (inv : shared.Inv) (reserved : (shared.view thread).reserved)
    (pc' : Pc ι) (fits : Fits { shared.view thread with reserved := False } pc')
    (owing : Owing (shared.retired thread) thread pc') :
    shared.retire thread = .ok (shared.retired thread) ∧
      Sound thread shared (shared.retired thread) pc' := by
  have member : thread ∈ shared.tickets := reserved
  have positive : shared.outstanding ≠ 0 := by
    rw [inv.outstanding]
    exact Nat.ne_of_gt (List.length_pos_of_mem member)
  refine ⟨by rw [Shared.retire, if_neg positive, Shared.retired], ?_, ?_, owing, ?_,
    fun _ _ _ _ owes => owes, .same⟩
  · exact { inv with
      tickets := inv.tickets.erase thread
      outstanding := by
        simp only [Shared.retired, List.length_erase_of_mem member, inv.outstanding]
      capacity := Nat.le_trans (Nat.sub_le _ _) inv.capacity }
  · rw [view_retired_self inv]
    exact fits
  · intro other differ
    exact .of_eq (view_retired differ)

/-- A lock taken by a subscriber becomes a guard once its reservation is given back. -/
theorem acquire_sound (inv : shared.Inv)
    (fits : Fits (shared.view thread) (.acquired : Pc ι)) :
    shared.retire thread = .ok (shared.retired thread) ∧
      Sound thread shared { shared.retired thread with
        guards := (shared.retired thread).guards + 1, holder := .guard } (.rest (.ok ())) := by
  obtain ⟨idle, queued, stands, reserved⟩ := fits
  have held : (shared.retired thread).holder = .call thread := Holder.eq_call stands
  obtain ⟨retires, sound⟩ := retire_sound inv reserved .tryRelease
    ⟨idle, queued, stands, id⟩ trivial
  obtain ⟨idle', queued', _, reserved'⟩ := sound.fits
  refine ⟨retires, guard_inv sound.inv held, ⟨idle', queued', rfl, reserved'⟩, trivial, ?_,
    fun _ _ _ _ owes => owes, .same⟩
  intro other differ
  have same := @Shared.view_holder ι _ other (shared.retired thread) shared.value
    shared.handoff ((shared.retired thread).guards + 1) .guard rfl
    (standing_of_call held differ).symm
  exact .of_eq (same.trans (view_retired differ))

/-! ## The handoff slot -/

/-- Taking the ownership from a slot that holds it. -/
theorem takeHandoff_sound (inv : shared.Inv) (slot : shared.holder.inSlot = true)
    (mine : ∀ other ≠ thread, shared.holder.standing other = .none) (pc' : Pc ι)
    (fits : Fits { shared.view thread with standing := .call } pc')
    (owing : ∀ shared', Owing shared' thread pc') :
    ∃ taken, shared.takeHandoff thread = (taken, some ⟨shared.value.identity⟩) ∧
      Sound thread shared taken pc' := by
  have identity : shared.handoff.identity = shared.value.identity := by
    simpa [slot] using inv.handoff
  have held : shared.holder ≠ .free := by
    intro free
    simp [free, Holder.inSlot] at slot
  refine ⟨{ shared with handoff := .new, holder := .call thread }, ?_, ?_, ?_, owing _, ?_,
    fun _ _ _ _ owes => owes, .same⟩
  · have full : shared.value.identity ≠ 0 := Nat.ne_of_gt inv.identity
    simp [Shared.takeHandoff, OwnershipSlot.take, OwnershipSlot.new, identity, full]
  · exact { inv with
      unlocked := by rintro ⟨⟩
      locked := fun _ => inv.locked held
      handoff := rfl
      guards := by
        have unguarded : shared.holder ≠ .guard := by
          intro guard
          simp [guard, Holder.inSlot] at slot
        simpa [unguarded] using inv.guards }
  · have view : ({ shared with handoff := .new, holder := .call thread } : Shared ι).view
        thread = { shared.view thread with standing := .call } := by
      simp [Shared.view]
    rw [view]
    exact fits
  · intro other differ
    apply View.Move.of_eq
    apply Shared.view_holder rfl
    rw [mine other differ]
    exact Holder.standing_call differ.symm

/-- Only the recipient of a grant sees it in the slot. -/
theorem granted_others (held : shared.holder = .granted thread) (differ : other ≠ thread) :
    shared.holder.standing other = .none := by
  rw [held]
  exact Holder.standing_granted differ.symm

theorem rejected_others (held : shared.holder = .rejected thread) (differ : other ≠ thread) :
    shared.holder.standing other = .none := by
  rw [held]
  exact Holder.standing_rejected differ.symm

/-! ## The sections of the queue -/

/-- A thread that finds the lock free takes it, and nothing was left in the queue. -/
theorem acquired_sound (inv : shared.Inv)
    (fits : Fits (shared.view thread) (.subscribe : Pc ι)) (timed : Bool)
    (unlocked : shared.value.state = 0) :
    ∃ acquired, shared.subscribe thread timed = .ok (acquired, .acquired) ∧
      Sound thread shared acquired .acquired := by
  obtain ⟨fresh, queued, stands, reserved⟩ := fits
  obtain ⟨free, empty⟩ := inv.free unlocked
  have handoff : shared.handoff.identity = 0 := by
    simpa [free, Holder.inSlot] using inv.handoff
  refine ⟨{ shared with
    value := { shared.value with state := LOCKED }, handoff := .new, holder := .call thread },
    ?_, ?_, ?_, trivial, ?_, fun _ _ _ _ owes => owes, .same⟩
  · simp [Shared.subscribe, ExclusiveCell.queueOrLock, unlocked, empty, handoff,
      OwnershipSlot.take, OwnershipSlot.new, ensure, pure, Except.pure]
  · exact { inv with
      unlocked := by rintro ⟨⟩
      locked := fun _ => .inl rfl
      marked := fun waiting => absurd empty waiting
      handoff := rfl
      guards := by simpa [free] using inv.guards }
  · exact ⟨fresh.1, queued, Holder.standing_call_self, reserved⟩
  · intro other differ
    apply View.Move.of_eq
    simp [Shared.view, free, Holder.standing_call differ.symm]

/-- A queued ticket, with the waiter mark set. -/
def Shared.enqueued (shared : Shared ι) (thread : ι) (timed : Bool) : Shared ι :=
  { shared with
    value := { shared.value with state := LOCKED ||| HAS_WAITERS }
    entries := shared.entries ++ [⟨thread, shared.arrivals⟩]
    timed := Function.update shared.timed thread timed
    arrivals := shared.arrivals + 1
    arrival := Function.update shared.arrival thread (some shared.arrivals)
    fate := Function.update shared.fate shared.arrivals (some .queued) }

/-- The fate of a ticket of another thread is not touched by a new ticket. -/
theorem view_enqueued (inv : shared.Inv) (differ : other ≠ thread) (timed : Bool) :
    (shared.enqueued thread timed).view other = shared.view other := by
  have fate : ((shared.enqueued thread timed).arrival other).bind
      (shared.enqueued thread timed).fate = (shared.arrival other).bind shared.fate := by
    simp only [Shared.enqueued, Function.update_of_ne differ]
    cases arrival : shared.arrival other with
    | none => rfl
    | some number =>
        have old : number ≠ shared.arrivals := Nat.ne_of_lt (inv.line.issued _ _ arrival)
        simp [old]
  rw [Shared.view, fate]
  simp [Shared.view, Shared.enqueued, differ]

theorem queued_sound (inv : shared.Inv)
    (fits : Fits (shared.view thread) (.subscribe : Pc ι)) (timed : Bool)
    (locked : shared.value.state ≠ 0) :
    shared.subscribe thread timed = .ok (shared.enqueued thread timed, .queued) ∧
      Sound thread shared (shared.enqueued thread timed) (.waiting .begin) := by
  obtain ⟨⟨idle, openCell, permit, resource⟩, queued, stands, reserved⟩ := fits
  have held : shared.holder ≠ .free := fun free => locked (inv.unlocked free)
  refine ⟨?_, ?_, ?_, trivial, ?_, fun _ _ _ _ owes => owes,
    .settled _ _ (.inl inv.line.unused)⟩
  · rcases inv.locked held with state | state
    · simp [Shared.subscribe, ExclusiveCell.queueOrLock, state, LOCKED, HAS_WAITERS,
        Shared.enqueued, pure, Except.pure]
    · have same : shared.value = { shared.value with state := LOCKED ||| HAS_WAITERS } := by
        rw [← state]
      simp only [Shared.subscribe, ExclusiveCell.queueOrLock, state, Shared.enqueued]
      simp [LOCKED, HAS_WAITERS] at same ⊢
      rw [← same]
      rfl
  · exact { inv with
      unlocked := fun free => absurd free held
      locked := fun _ => .inr rfl
      marked := fun _ => rfl
      line := inv.line.push queued }
  · refine ⟨reserved, openCell, idle, .queued, ⟨?_, stands, ?_⟩, permit, resource⟩
    · simp [Shared.view, Shared.enqueued]
    · simp [Shared.view, Shared.enqueued]
  · intro other differ
    exact .of_eq (view_enqueued inv differ timed)

/-- The queue without one entry, whose ticket has got its fate. -/
theorem queued_left (inv : shared.Inv) {entry : Entry ι} {before after : List (Entry ι)}
    (split : shared.entries = before ++ entry :: after) :
    other ∈ (before ++ after).map Entry.wait ↔
      other ∈ shared.entries.map Entry.wait ∧ other ≠ entry.wait := by
  have waits := inv.line.waits
  rw [split, List.map_append, List.map_cons] at waits
  have first := (List.nodup_cons.mp (List.perm_middle.nodup_iff.mp waits)).1
  rw [← List.map_append] at first
  constructor
  · intro member
    refine ⟨?_, fun same => first (same ▸ member)⟩
    rw [split]
    simp only [List.map_append, List.map_cons, List.mem_append, List.mem_cons] at member ⊢
    exact member.imp_right .inr
  · rintro ⟨member, differ⟩
    rw [split] at member
    simp only [List.map_append, List.map_cons, List.mem_append, List.mem_cons] at member ⊢
    exact member.imp_right fun member => member.resolve_left differ

/-- Fates of the tickets of other threads. -/
theorem fate_left (inv : shared.Inv) {entry : Entry ι} (member : entry ∈ shared.entries)
    (final : Fate) (differ : other ≠ entry.wait) :
    (shared.arrival other).bind
        (Function.update shared.fate entry.arrival (some final)) =
      (shared.arrival other).bind shared.fate := by
  cases arrival : shared.arrival other with
  | none => rfl
  | some number =>
      have old : number ≠ entry.arrival := by
        intro same
        rw [same] at arrival
        exact differ (inv.line.unique _ _ _ arrival (inv.line.numbered entry member))
      simp [old]

theorem fate_self (inv : shared.Inv) {entry : Entry ι} (member : entry ∈ shared.entries)
    (final : Fate) :
    (shared.arrival entry.wait).bind
        (Function.update shared.fate entry.arrival (some final)) = some final := by
  simp [inv.line.numbered entry member]

/-- A dropped ticket leaves the queue. -/
theorem remove_sound (inv : shared.Inv) {selected : Bool} {error : Error}
    (fits : Fits (shared.view thread) (.dropTicket selected error : Pc ι)) :
    Sound thread shared (shared.remove thread).1
      (.retire (shared.remove thread).2 selected error) := by
  obtain ⟨reserved, idle, stands⟩ := fits
  rw [Shared.remove]
  cases found : shared.entries.find? fun entry => entry.wait = thread with
  | none =>
      have absent : ¬ (shared.view thread).queued := by
        intro queued
        obtain ⟨entry, member, same⟩ := List.mem_map.mp queued
        simpa [same] using List.find?_eq_none.mp found entry member
      refine .still inv ⟨reserved, idle, ?_⟩ trivial
      cases selected with
      | true => exact stands
      | false =>
          rcases stands with kept | kept
          · exact absurd kept.1.1 absent
          · exact kept
  | some entry =>
      obtain ⟨same, before, after, split, earlier⟩ :=
        List.find?_eq_some_iff_append.mp found
      have same : entry.wait = thread := by simpa using same
      have member : entry ∈ shared.entries := by simp [split]
      have queued : (shared.view thread).queued :=
        List.mem_map.mpr ⟨entry, member, same⟩
      have erased : (shared.entries.eraseP fun entry => entry.wait = thread) =
          before ++ after := by
        rw [split, List.eraseP_append_right]
        · simp [same]
        · simpa using earlier
      simp only [erased]
      have standing : (shared.view thread).standing = .none := by
        cases selected with
        | true => exact absurd queued stands.1
        | false =>
            rcases stands with kept | kept | kept
            · exact kept.1.2.1
            · exact absurd queued kept.1.1
            · exact absurd queued kept.1.1
      refine ⟨?_, ⟨reserved, idle, ?_, standing, ?_⟩, trivial, ?_,
        fun _ _ _ _ owes => owes, .settled _ _ (.inr (inv.line.fate_queued member))⟩
      · exact { inv with
          line := inv.line.leave split (by rintro ⟨⟩) (by rintro ⟨⟩)
          marked := fun _ => inv.marked (List.ne_nil_of_mem member) }
      · intro still
        exact ((queued_left inv split).mp still).2 same.symm
      · rw [← same]
        exact fate_self inv member .abandoned
      · intro other differ
        rw [← same] at differ
        apply View.Move.of_eq
        have queues : (other ∈ (before ++ after).map Entry.wait) =
            (other ∈ shared.entries.map Entry.wait) := by
          rw [queued_left inv split, and_iff_left differ]
        simp only [Shared.view, Shared.settle, queues, fate_left inv member _ differ]

/-! ## The release of the ownership -/

/-- The state after the front entry has been popped and the ownership published for it. -/
def Shared.popped (shared : Shared ι) (entry : Entry ι) (rest : List (Entry ι))
    (final : Fate) (holder : Holder ι) (word : ι → WaitWord) (publisher : ι → Option ι) :
    Shared ι :=
  { shared with
    value := { shared.value with
      state := LOCKED ||| ((!rest.isEmpty).toNat * HAS_WAITERS) }
    handoff := ⟨shared.value.identity⟩
    entries := rest
    fate := Function.update shared.fate entry.arrival (some final)
    holder := holder
    word := word
    publisher := publisher }

section Popped

variable {entry : Entry ι} {rest : List (Entry ι)} {final : Fate} {holder : Holder ι}
  {word : ι → WaitWord} {publisher : ι → Option ι}

theorem popped_inv (inv : shared.Inv) (held : shared.holder = .call thread)
    (split : shared.entries = entry :: rest) (left : final ≠ .queued)
    (slot : holder.inSlot = true)
    (active : ∀ other, (word other).phase = .active → (word other).permit = false) :
    (shared.popped entry rest final holder word publisher).Inv where
  identity := inv.identity
  unlocked free := by
    rw [show holder = .free from free] at slot
    cases slot
  locked _ := by cases rest <;> simp [Shared.popped]
  marked waiting := by
    cases rest with
    | nil => exact absurd rfl waiting
    | cons => simp [Shared.popped]
  handoff := by simp [Shared.popped, slot]
  guards := by
    have unguarded : holder ≠ .guard := by
      intro guard
      simp [guard, Holder.inSlot] at slot
    have guards : shared.guards = 0 := by simpa [held] using inv.guards
    simp [Shared.popped, unguarded, guards]
  line := inv.line.leave (split : shared.entries = [] ++ entry :: rest) left fun _ => rfl
  tickets := inv.tickets
  outstanding := inv.outstanding
  capacity := inv.capacity
  active := active

theorem popped_view (inv : shared.Inv) (split : shared.entries = entry :: rest)
    (differ : other ≠ entry.wait) (same : word other = shared.word other) :
    (shared.popped entry rest final holder word publisher).view other =
      { shared.view other with standing := holder.standing other } := by
  have member : entry ∈ shared.entries := by simp [split]
  have queues : (other ∈ rest.map Entry.wait) = (other ∈ shared.entries.map Entry.wait) := by
    simp [split, differ]
  simp only [Shared.view, Shared.popped, same, queues, fate_left inv member _ differ]

theorem popped_recipient (inv : shared.Inv) (split : shared.entries = entry :: rest) :
    (shared.popped entry rest final holder word publisher).view entry.wait =
      { shared.view entry.wait with
        word := word entry.wait
        queued := False
        standing := holder.standing entry.wait
        fate := some final } := by
  have member : entry ∈ shared.entries := by simp [split]
  have waits := inv.line.waits
  rw [split, List.map_cons, List.nodup_cons] at waits
  simp only [Shared.view, Shared.popped, fate_self inv member, waits.1]

/-- The front ticket is queued while the releasing thread has the ownership. -/
theorem front_queued (inv : shared.Inv) (held : shared.holder = .call thread)
    (split : shared.entries = entry :: rest) (differ : entry.wait ≠ thread) :
    (shared.view entry.wait).Is .queued := by
  have member : entry ∈ shared.entries := by simp [split]
  refine ⟨List.mem_map_of_mem member, standing_of_call held differ, ?_⟩
  simp [Shared.view, inv.line.numbered entry member, inv.line.fate_queued member]

/-- The releasing thread is not in the queue. -/
theorem front_differs (away : (shared.view thread).Away .call)
    (split : shared.entries = entry :: rest) : entry.wait ≠ thread := by
  intro same
  apply away.2.1
  simp [Shared.view, split, ← same]

/-- What the step of a releasing thread needs of the new place of the ownership. -/
theorem popped_sound (inv : shared.Inv) (away : (shared.view thread).Away .call)
    (split : shared.entries = entry :: rest) (left : final ≠ .queued)
    (slot : holder.inSlot = true)
    (active : ∀ other, (word other).phase = .active → (word other).permit = false)
    (words : ∀ other ≠ entry.wait, word other = shared.word other)
    (stands : ∀ other ≠ entry.wait, other ≠ thread → holder.standing other = .none)
    (fits : Fits { shared.view thread with standing := holder.standing thread } pc')
    (owing : Owing (shared.popped entry rest final holder word publisher) thread pc')
    (moved : (shared.view entry.wait).Move { shared.view entry.wait with
      word := word entry.wait
      queued := False
      standing := holder.standing entry.wait
      fate := some final })
    (owes : ∀ other task claimed, Owes shared other task claimed →
      Owes (shared.popped entry rest final holder word publisher) other task claimed) :
    Sound thread shared (shared.popped entry rest final holder word publisher) pc' where
  inv := popped_inv inv (Holder.eq_call away.2.2.1) split left slot active
  fits := by
    have differ := front_differs away split
    rw [popped_view inv split differ.symm (words _ differ.symm)]
    exact fits
  owing := owing
  moves other differ := by
    by_cases front : other = entry.wait
    · rw [front, popped_recipient inv split]
      exact moved
    · rw [popped_view inv split front (words _ front), stands other front differ,
        ← standing_of_call (Holder.eq_call away.2.2.1) differ]
      exact .same
  owes other _ := owes other
  fates := .settled _ _ (.inr (inv.line.fate_queued (by simp [split])))

end Popped

/-- Where `release_ownership` continues. -/
def Pc.afterRelease (last : Last) : Shared.Released ι → Pc ι
  | .unlocked | .stored => .rest last
  | .claimed recipient word => .publish recipient word last
  | .rejected => .reclaim last

/-- With an empty queue the lock is released. -/
theorem release_empty (inv : shared.Inv) {ownership : Ownership} {last : Last}
    (fits : Fits (shared.view thread) (.release ownership last : Pc ι))
    (empty : shared.entries = []) :
    ∃ released, shared.releaseOwnership thread ownership =
        some (.ok (released, .unlocked)) ∧
      Sound thread shared released (.rest last) := by
  obtain ⟨⟨idle, queued, stands, reserved⟩, identity⟩ := fits
  have held := Holder.eq_call stands
  have handoff : shared.handoff.identity = 0 := by
    simpa [held, Holder.inSlot] using inv.handoff
  have accepts := inv.accepts (by simp [held]) identity
  refine ⟨_, ?_, ⟨unlock_inv inv held empty .new rfl, ⟨idle, queued, rfl, reserved⟩, trivial,
    ?_, fun _ _ _ _ owes => owes, .same⟩⟩
  · simp [Shared.releaseOwnership, empty, handoff, OwnershipSlot.take, OwnershipSlot.new,
      ExclusiveCell.unlock, accepts, ensure, pure, Except.pure]
  · intro other differ
    exact .of_eq (Shared.view_holder rfl (standing_of_call held differ).symm)

/-- The front ticket is offered the ownership. -/
theorem release_front (inv : shared.Inv) {ownership : Ownership} {last : Last}
    (fits : Fits (shared.view thread) (.release ownership last : Pc ι))
    {entry : Entry ι} {rest : List (Entry ι)} (split : shared.entries = entry :: rest)
    (unbound : (shared.word entry.wait).phase ≠ .binding) :
    ∃ released how, shared.releaseOwnership thread ownership =
        some (.ok (released, how)) ∧
      Sound thread shared released (Pc.afterRelease last how) := by
  obtain ⟨away, identity⟩ := fits
  have held := Holder.eq_call away.2.2.1
  have identity : ownership.identity = shared.value.identity := identity
  have accepts := inv.accepts (by simp [held]) identity
  have handoff : shared.handoff.identity = 0 := by
    simpa [held, Holder.inSlot] using inv.handoff
  have differ := front_differs away split
  have isQueued := front_queued inv held split differ
  have away' : ({ shared.view thread with
      standing := Holder.standing thread (.granted entry.wait) } : View).Away .none :=
    ⟨away.1, away.2.1, Holder.standing_granted differ, away.2.2.2⟩
  have stands : ∀ other ≠ entry.wait, other ≠ thread →
      (Holder.granted entry.wait).standing other = .none :=
    fun other front _ => Holder.standing_granted (Ne.symm front)
  cases offer : (shared.word entry.wait).resourceOffer .permit with
  | none =>
      refine ⟨shared.popped entry rest .abandoned (.rejected thread) shared.word
        shared.publisher, .rejected, ?_, ?_⟩
      · simp [Shared.releaseOwnership, split, claimResource, unbound, offer,
          ExclusiveCell.setWaiters, accepts, OwnershipSlot.publish, handoff, identity,
          Shared.popped, Shared.settle, pure, Except.pure]
      · apply popped_sound inv away split
        case left => rintro ⟨⟩
        case slot => rfl
        case active => exact inv.active
        case words => exact fun _ _ => rfl
        case stands => exact fun other _ notMe => Holder.standing_rejected (Ne.symm notMe)
        case fits => exact ⟨away.1, away.2.1, Holder.standing_rejected_self, away.2.2.2⟩
        case owing => trivial
        case moved =>
          have stays : (Holder.rejected thread).standing entry.wait =
              (shared.view entry.wait).standing := by
            rw [isQueued.2.1]
            exact Holder.standing_rejected (Ne.symm differ)
          rw [stays]
          exact .rejected isQueued unbound offer
        case owes => exact fun _ _ _ owes => owes
  | some next =>
      have moved : (shared.view entry.wait).Move { shared.view entry.wait with
          word := Function.update shared.word entry.wait next entry.wait
          queued := False
          standing := Holder.standing entry.wait (.granted entry.wait)
          fate := some .granted } := by
        rw [Function.update_self, Holder.standing_granted_self]
        exact .offered next isQueued unbound offer
      have words : ∀ other ≠ entry.wait,
          Function.update shared.word entry.wait next other = shared.word other :=
        fun _ front => Function.update_of_ne front ..
      by_cases active : (shared.word entry.wait).phase = .active
      · have claimed : next = ((shared.word entry.wait).withResource (some .permit)).claimed
            .ready := by
          simp only [WaitWord.resourceOffer, active] at offer
          split at offer
          · cases offer
          · cases offer
            rfl
        refine ⟨shared.popped entry rest .granted (.granted entry.wait)
          (Function.update shared.word entry.wait next)
          (Function.update shared.publisher entry.wait (some thread)),
          .claimed entry.wait next, ?_, ?_⟩
        · simp [Shared.releaseOwnership, split, claimResource, active, offer,
            ExclusiveCell.setWaiters, accepts, OwnershipSlot.publish, handoff, identity,
            Shared.popped, Shared.settle, Shared.claim, Shared.setWord, pure, Except.pure]
        · have permit := inv.active _ active
          apply popped_sound inv away split
          case left => rintro ⟨⟩
          case slot => rfl
          case active =>
            intro other active'
            by_cases front : other = entry.wait
            · rw [front, Function.update_self, claimed] at active'
              cases active'
            · rw [words other front] at active' ⊢
              exact inv.active other active'
          case words => exact words
          case stands => exact stands
          case fits => exact away'
          case owing =>
            have owed := @owes_claim ι _ thread entry.wait shared next
              (by rw [claimed]; rfl) (by rw [claimed]; exact permit)
            exact owed
          case moved => exact moved
          case owes =>
            intro other task claimed' owes
            exact owes_of_claim (unclaimed_of_active active) owes
      · refine ⟨shared.popped entry rest .granted (.granted entry.wait)
          (Function.update shared.word entry.wait next) shared.publisher, .stored, ?_, ?_⟩
        · simp [Shared.releaseOwnership, split, claimResource, unbound, active, offer,
            ExclusiveCell.setWaiters, accepts, OwnershipSlot.publish, handoff, identity,
            Shared.popped, Shared.settle, Shared.setWord, pure, Except.pure]
        · have idle : (shared.word entry.wait).phase = .idle := by
            by_contra live
            simp [WaitWord.resourceOffer, live, active] at offer
          have stored := offered_idle idle offer
          apply popped_sound inv away split
          case left => rintro ⟨⟩
          case slot => rfl
          case active =>
            intro other active'
            by_cases front : other = entry.wait
            · rw [front, Function.update_self, stored] at active'
              exact absurd (show (shared.word entry.wait).phase = .active from active') active
            · rw [words other front] at active' ⊢
              exact inv.active other active'
          case words => exact words
          case stands => exact stands
          case fits => exact away'
          case owing => trivial
          case moved => exact moved
          case owes =>
            intro other task claimed' owes
            exact owes_setWord owes (.inl (unclaimed_of_idle idle))

end VThread.Mutex
