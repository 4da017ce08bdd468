import VThread.Gate.Steps

/-!
# Steps of permits and tickets

Permits that move, reservations, and the sections under the lock of the gate.
-/

namespace VThread.Gate

open VThread.Lib VThread.Wait

variable {ι : Type} [DecidableEq ι] {thread other task : ι} {shared shared' : Shared ι}
  {pc pc' : Pc ι}

omit [DecidableEq ι] in
/-- A claim is owed as long as the cells and their claimants stay. -/
theorem Owes.keep {claimed : WaitWord} (owes : Owes shared thread task claimed)
    (publisher : shared'.publisher = shared.publisher) (word : shared'.word = shared.word) :
    Owes shared' thread task claimed := by
  refine ⟨?_, owes.isClaimed, owes.permit, ?_⟩
  · rw [publisher]
    exact owes.publisher
  · rw [word]
    exact owes.held

/-! ## Permits -/

/-- A permit that moves between places of other threads changes nothing for a thread. -/
theorem view_move {source target : Place ι}
    (fromOther : source ≠ .selected other ∧ source ≠ .carried other)
    (toOther : target ≠ .selected other ∧ target ≠ .carried other) :
    (shared.move source target).view other = shared.view other := by
  simp only [Shared.view, Shared.move, count_move_other fromOther.1.symm toOther.1.symm,
    count_move_other fromOther.2.symm toOther.2.symm]

/-- The call of the thread carries a permit. -/
theorem View.Away.carries (away : (shared.view thread).Away 1) :
    .carried thread ∈ shared.permits :=
  List.count_pos_iff.mp (Nat.lt_of_lt_of_eq Nat.one_pos away.carried.symm)

/-- A permit is selected for the ticket of the thread. -/
theorem View.Leaves.selects (leaves : (shared.view thread).Leaves (some .permit)) :
    .selected thread ∈ shared.permits :=
  List.count_pos_iff.mp (Nat.lt_of_lt_of_eq Nat.one_pos leaves.selected.symm)

theorem Shared.Inv.stores (inv : shared.Inv) (some : shared.available ≠ 0) :
    .stored ∈ shared.permits := by
  apply List.count_pos_iff.mp
  rw [inv.accounts.stored]
  omega

/-- `try_take` takes a stored permit. -/
theorem succeed_sound (inv : shared.Inv) (away : (shared.view thread).Away 0)
    (some : shared.available ≠ 0) :
    Sound thread shared { shared.succeed .stored with available := shared.available - 1 }
      (.rest (.ok ())) := by
  have views : ∀ other, ({ shared.succeed .stored with
      available := shared.available - 1 } : Shared ι).view other = shared.view other :=
    fun other => @view_move ι _ other shared .stored .taken (by simp) (by simp)
  have accounts : Accounts (shared.available - 1) (shared.successes + 1) shared.issued
      shared.closed (shared.permits.replace .stored .taken) := by
    have moved := @Accounts.move _ _ _ _ _ _ _ inv.accounts .stored .taken (inv.stores some)
      (by simp) (by simp)
    simpa using moved
  refine ⟨?_, ?_, trivial, fun other _ => .of_eq (views other), fun _ _ _ _ owes => ?_⟩
  · exact { inv with
      shut := fun closed => absurd (inv.shut closed).2 some
      idle := fun waiting => absurd (inv.idle waiting) some
      accounts := accounts }
  · rw [views]
    exact away
  · exact ⟨owes.publisher, owes.isClaimed, owes.permit, owes.held⟩

/-! ## Reservations -/

theorem reserve_sound (inv : shared.Inv)
    (fits : Fits (shared.view thread) (.reserve : Pc ι))
    (reserves : shared.reserve thread = .ok shared') :
    Sound thread shared shared' .subscribe := by
  obtain ⟨away, fresh⟩ := fits
  rw [Shared.reserve] at reserves
  split at reserves
  · rename_i room
    cases reserves
    refine ⟨?_, ⟨fresh, away.queued, List.mem_cons_self, away.selected, away.carried⟩, trivial,
      ?_, fun _ _ _ _ owes => ⟨owes.publisher, owes.isClaimed, owes.permit, owes.held⟩⟩
    · exact { inv with
        tickets := List.nodup_cons.mpr ⟨away.reserved, inv.tickets⟩
        outstanding := congrArg (· + 1) inv.outstanding
        capacity := room }
    · intro other differ
      apply View.Move.of_eq
      simp [Shared.view, differ]
  · cases reserves

/-- The shared state after a reservation has been given back. -/
def Shared.released (shared : Shared ι) (thread : ι) : Shared ι :=
  { shared with
    outstanding := shared.outstanding - 1, tickets := shared.tickets.erase thread }

theorem view_released_self (inv : shared.Inv) (thread : ι) :
    (shared.released thread).view thread = { shared.view thread with reserved := False } := by
  simp [Shared.view, Shared.released, inv.tickets.mem_erase_iff]

theorem view_released (differ : other ≠ thread) :
    (shared.released thread).view other = shared.view other := by
  simp [Shared.view, Shared.released, List.mem_erase_of_ne differ]

/-- What a step does that no other thread sees. -/
structure Quiet (thread : ι) (shared shared' : Shared ι) : Prop where
  inv : shared'.Inv
  views : ∀ other ≠ thread, shared'.view other = shared.view other
  publisher : shared'.publisher = shared.publisher
  word : shared'.word = shared.word

theorem Quiet.sound (quiet : Quiet thread shared shared') (fits : Fits (shared'.view thread) pc')
    (owing : Owing shared' thread pc') : Sound thread shared shared' pc' :=
  ⟨quiet.inv, fits, owing, fun other differ => .of_eq (quiet.views other differ),
    fun _ _ _ _ owes => owes.keep quiet.publisher quiet.word⟩

theorem Quiet.trans {shared'' : Shared ι} (quiet : Quiet thread shared shared')
    (next : Quiet thread shared' shared'') : Quiet thread shared shared'' where
  inv := next.inv
  views other differ := (next.views other differ).trans (quiet.views other differ)
  publisher := next.publisher.trans quiet.publisher
  word := next.word.trans quiet.word

/-- Who has a reservation can give it back. -/
theorem release_quiet (inv : shared.Inv) (reserved : (shared.view thread).reserved) :
    shared.release thread = .ok (shared.released thread) ∧
      Quiet thread shared (shared.released thread) := by
  have member : thread ∈ shared.tickets := reserved
  have positive : shared.outstanding ≠ 0 := by
    rw [inv.outstanding]
    exact Nat.ne_of_gt (List.length_pos_of_mem member)
  refine ⟨by rw [Shared.release, if_neg positive, Shared.released], ?_,
    fun other differ => view_released differ, rfl, rfl⟩
  exact { inv with
    tickets := inv.tickets.erase thread
    outstanding := by
      simp only [Shared.released, List.length_erase_of_mem member, inv.outstanding]
    capacity := Nat.le_trans (Nat.sub_le _ _) inv.capacity }

/-- A permit that was selected for the thread is taken by its call. -/
theorem succeed_quiet (inv : shared.Inv) (selected : .selected thread ∈ shared.permits) :
    Quiet thread shared (shared.succeed (.selected thread)) where
  inv := by
    have accounts : Accounts shared.available (shared.successes + 1) shared.issued shared.closed
        (shared.permits.replace (.selected thread) .taken) := by
      simpa using @Accounts.move _ _ _ _ _ _ _ inv.accounts (.selected thread) .taken selected
        (by simp) (by simp)
    exact { inv with accounts := accounts }
  views other differ := by
    have same : (shared.move (.selected thread) .taken).view other = shared.view other :=
      view_move (by simp [differ.symm]) (by simp)
    exact same
  publisher := rfl
  word := rfl

/-- A permit that was selected for the thread is carried on by its call. -/
theorem carry_quiet (inv : shared.Inv) (selected : .selected thread ∈ shared.permits) :
    Quiet thread shared (shared.move (.selected thread) (.carried thread)) where
  inv := by
    have accounts : Accounts shared.available shared.successes shared.issued shared.closed
        (shared.permits.replace (.selected thread) (.carried thread)) := by
      simpa using @Accounts.move _ _ _ _ _ _ _ inv.accounts (.selected thread) (.carried thread)
        selected (by simp) (by simp)
    exact { inv with accounts := accounts }
  views other differ := view_move (by simp [differ.symm]) (by simp [differ.symm])
  publisher := rfl
  word := rfl

/-- A ticket that was selected ends with success. -/
theorem complete_sound (inv : shared.Inv) {selection : ResourceSelection}
    (fits : Fits (shared.view thread) (.complete selection : Pc ι)) :
    shared.release thread = .ok (shared.released thread) ∧
      Sound thread shared (match selection with
        | .permit => (shared.released thread).succeed (.selected thread)
        | .broadcast => shared.released thread) (.rest (.ok ())) := by
  obtain ⟨leaves, openCell⟩ := fits
  obtain ⟨releases, quiet⟩ := release_quiet inv leaves.reserved
  refine ⟨releases, ?_⟩
  have view := view_released_self inv thread
  cases selection with
  | broadcast =>
      refine quiet.sound ?_ trivial
      rw [view]
      exact ⟨leaves.idle, openCell, leaves.queued, id, leaves.selected, leaves.carried⟩
  | permit =>
      refine (quiet.trans (succeed_quiet quiet.inv leaves.selects)).sound ?_ trivial
      have one : shared.permits.count (.selected thread) = 1 := leaves.selected
      have none : (shared.permits.replace (.selected thread) .taken).count (.selected thread) =
          0 := by
        rw [count_move_source (by simp), one]
      have same : (shared.permits.replace (.selected thread) .taken).count (.carried thread) =
          shared.permits.count (.carried thread) := count_move_other (by simp) (by simp)
      have view' : ((shared.released thread).succeed (.selected thread)).view thread =
          { (shared.released thread).view thread with selected := 0 } := by
        simp [Shared.view, Shared.succeed, Shared.move, Shared.released, none, same]
      rw [view', view]
      exact ⟨leaves.idle, openCell, leaves.queued, id, rfl, leaves.carried⟩

/-- A ticket that ends with an error passes a selected permit on. -/
theorem release_sound (inv : shared.Inv) {selection : Option ResourceSelection} {error : Error}
    (fits : Fits (shared.view thread) (.release selection error : Pc ι)) :
    shared.release thread = .ok (shared.released thread) ∧
      if selection = some .permit then
        Sound thread shared ((shared.released thread).move (.selected thread) (.carried thread))
          (.signal (.error error))
      else Sound thread shared (shared.released thread) (.rest (.error error)) := by
  obtain ⟨leaves, openCell⟩ := fits
  obtain ⟨releases, quiet⟩ := release_quiet inv leaves.reserved
  refine ⟨releases, ?_⟩
  have view := view_released_self inv thread
  split
  · rename_i permit
    subst permit
    refine (quiet.trans (carry_quiet quiet.inv leaves.selects)).sound ?_ trivial
    have one : shared.permits.count (.selected thread) = 1 := leaves.selected
    have zero : shared.permits.count (.carried thread) = 0 := leaves.carried
    have none : (shared.permits.replace (.selected thread) (.carried thread)).count
        (.selected thread) = 0 := by
      rw [count_move_source (by simp), one]
    have carried : (shared.permits.replace (.selected thread) (.carried thread)).count
        (.carried thread) = 1 := by
      rw [count_move_target leaves.selects (by simp), zero]
    have view' : ((shared.released thread).move (.selected thread) (.carried thread)).view
        thread = { (shared.released thread).view thread with selected := 0, carried := 1 } := by
      simp [Shared.view, Shared.move, Shared.released, none, carried]
    rw [view', view]
    exact ⟨leaves.idle, openCell, leaves.queued, id, rfl, rfl⟩
  · rename_i other
    refine quiet.sound ?_ trivial
    rw [view]
    have selected : permitsOf selection = 0 := by
      cases selection with
      | none => rfl
      | some selection =>
          cases selection with
          | permit => exact absurd rfl other
          | broadcast => rfl
    exact ⟨leaves.idle, openCell, leaves.queued, id, leaves.selected.trans selected,
      leaves.carried⟩

/-! ## Subscriptions -/

/-- A fresh cell takes an offer. -/
theorem offer_fresh {word : WaitWord} (fresh : Fresh word) (selection : ResourceSelection) :
    offerResource selection word =
      some ((word.withResource (some selection)).withPermit true, true) := by
  obtain ⟨idle, openCell, permit, resource⟩ := fresh
  simp [offerResource, claimResource, WaitWord.resourceOffer, idle, openCell, permit, resource,
    decided]

/-- A closed gate gives the reservation back. -/
theorem refused_sound (inv : shared.Inv)
    (fits : Fits (shared.view thread) (.subscribe : Pc ι)) (timed : Bool)
    (closed : shared.closed = true) :
    shared.subscribeParker thread timed =
        some (.ok (shared.released thread, .error .closed)) ∧
      Sound thread shared (shared.released thread) (.rest (.error .closed)) := by
  obtain ⟨fresh, queued, reserved, selected, carried⟩ := fits
  obtain ⟨releases, quiet⟩ := release_quiet inv reserved
  have sound : Sound thread shared (shared.released thread) (.rest (.error .closed)) := by
    refine quiet.sound ?_ trivial
    rw [view_released_self inv thread]
    exact ⟨fresh.idle, fresh.openCell, queued, id, selected, carried⟩
  refine ⟨?_, sound⟩
  rw [Shared.subscribeParker, if_pos closed, releases]
  rfl

/-- A ticket that takes a stored permit is selected at once. -/
theorem granted_sound (inv : shared.Inv)
    (fits : Fits (shared.view thread) (.subscribe : Pc ι)) (timed : Bool)
    (isOpen : shared.closed = false) (some : shared.available ≠ 0) :
    ∃ granted, shared.subscribeParker thread timed = Option.some (.ok (granted, .ok ())) ∧
      Sound thread shared granted (.waiting .begin) := by
  obtain ⟨fresh, queued, reserved, selected, carried⟩ := fits
  have member := inv.stores some
  have count : (shared.permits.replace .stored (.selected thread)).count (.selected thread) =
      1 := by
    rw [count_move_target member (by simp)]
    exact congrArg (· + 1) selected
  have others : ∀ place : Place ι, place ≠ .stored → place ≠ .selected thread →
      (shared.permits.replace .stored (.selected thread)).count place =
        shared.permits.count place :=
    fun place fromOther toOther => count_move_other fromOther toOther
  have accounts : Accounts (shared.available - 1) shared.successes shared.issued shared.closed
      (shared.permits.replace .stored (.selected thread)) := by
    have moved := @Accounts.move _ _ _ _ _ _ _ inv.accounts .stored (.selected thread) member
      (by simp) (by simp)
    simpa using moved
  refine ⟨{ shared.move .stored (.selected thread) with
      available := shared.available - 1
      timed := Function.update shared.timed thread timed
      word := Function.update shared.word thread
        (((shared.word thread).withResource (Option.some .permit)).withPermit true) },
    ?_, ?_, ?_, trivial, ?_, ?_⟩
  · rw [Shared.subscribeParker, if_neg (by simp [isOpen]), if_pos some]
    have offer : offerResource .permit (shared.word thread) = _ := offer_fresh fresh .permit
    simp only [offer]
    rfl
  · have idle : ((shared.setWord thread
        (((shared.word thread).withResource (Option.some .permit)).withPermit true))).Inv :=
      inv.setWord fun active => by
        have idle : (shared.word thread).phase = .idle := fresh.idle
        have active : (shared.word thread).phase = .active := active
        rw [idle] at active
        cases active
    exact { inv with
      shut := fun closed => absurd (inv.shut closed).2 some
      idle := fun waiting => absurd (inv.idle waiting) some
      accounts := accounts
      active := idle.active }
  · have view : ({ shared.move .stored (.selected thread) with
        available := shared.available - 1
        timed := Function.update shared.timed thread timed
        word := Function.update shared.word thread
          (((shared.word thread).withResource (Option.some .permit)).withPermit true) } :
            Shared ι).view thread = { shared.view thread with
        word := ((shared.word thread).withResource (Option.some .permit)).withPermit true
        timed
        selected := 1 } := by
      simp [Shared.view, Shared.move, count, others]
    rw [view]
    refine ⟨reserved, fresh.idle, .granted .permit, ⟨?_, rfl, by rintro ⟨⟩, carried⟩,
      ⟨fresh.openCell, rfl⟩, rfl⟩
    exact ⟨fun still => absurd still queued, by rintro ⟨⟩⟩
  · intro other differ
    apply View.Move.of_eq
    simp [Shared.view, Shared.move, differ, others]
  · intro other _ task claimed owes
    have kept : Owes (shared.setWord thread
        (((shared.word thread).withResource (Option.some .permit)).withPermit true)) other task
        claimed := owes_setWord owes (.inl (unclaimed_of_idle fresh.idle))
    exact kept.keep rfl rfl

/-- Any other ticket is queued. -/
theorem queued_sound (inv : shared.Inv)
    (fits : Fits (shared.view thread) (.subscribe : Pc ι)) (timed : Bool)
    (isOpen : shared.closed = false) (none : shared.available = 0) :
    ∃ queued, shared.subscribeParker thread timed = some (.ok (queued, .ok ())) ∧
      Sound thread shared queued (.waiting .begin) := by
  obtain ⟨fresh, queued, reserved, selected, carried⟩ := fits
  refine ⟨{ shared with
      entries := shared.entries ++ [⟨thread, shared.arrivals⟩]
      timed := Function.update shared.timed thread timed
      arrivals := shared.arrivals + 1 }, ?_, ?_, ?_, trivial, ?_,
    fun _ _ _ _ owes => owes.keep rfl rfl⟩
  · rw [Shared.subscribeParker, if_neg (by simp [isOpen]), if_neg (by simp [none])]
    rfl
  · exact { inv with
      waits := by
        rw [List.map_append]
        exact List.nodup_append.mpr ⟨inv.waits, List.nodup_singleton _, by
          rintro waiter member _ last rfl
          obtain rfl : waiter = thread := List.mem_singleton.mp last
          exact queued member⟩
      sorted := by
        rw [List.map_append]
        refine List.pairwise_append.mpr ⟨inv.sorted, List.pairwise_singleton .., ?_⟩
        intro arrival member last isLast
        obtain ⟨entry, isEntry, rfl⟩ := List.mem_map.mp member
        rw [List.mem_singleton.mp isLast]
        exact inv.arrived entry isEntry
      arrived := by
        intro entry member
        rcases List.mem_append.mp member with member | member
        · exact Nat.lt_succ_of_lt (inv.arrived entry member)
        · rw [List.mem_singleton.mp member]
          exact Nat.lt_succ_self _
      shut := by
        intro closed
        rw [isOpen] at closed
        cases closed
      idle := fun _ => none }
  · have view : ({ shared with
        entries := shared.entries ++ [⟨thread, shared.arrivals⟩]
        timed := Function.update shared.timed thread timed
        arrivals := shared.arrivals + 1 } : Shared ι).view thread =
        { shared.view thread with timed, queued := True } := by
      simp [Shared.view]
    rw [view]
    exact ⟨reserved, fresh.idle, .queued, ⟨⟨fun _ => rfl, fun _ => trivial⟩, selected, by rintro ⟨⟩,
      carried⟩, ⟨fresh.openCell, fresh.resource⟩, fresh.permit⟩
  · intro other differ
    apply View.Move.of_eq
    simp [Shared.view, differ]

/-! ## Dropped tickets -/

/-- The queue without the entry of one thread. -/
theorem waits_erased (entries : List (Entry ι)) (thread : ι) :
    (entries.eraseP fun entry => entry.wait = thread).map Entry.wait =
      (entries.map Entry.wait).erase thread := by
  rw [List.erase_eq_eraseP, List.eraseP_map]
  congr
  funext entry
  rw [Function.comp_apply, Bool.beq_eq_decide_eq, decide_eq_decide]
  exact eq_comm

theorem arrivals_erased (entries : List (Entry ι)) (thread : ι) :
    (entries.eraseP fun entry => entry.wait = thread).Sublist entries :=
  List.eraseP_sublist

theorem dropTicket_sound (inv : shared.Inv) {error : Error}
    (fits : Fits (shared.view thread) (.dropTicket error : Pc ι)) :
    ∃ dropped selection, shared.dropTicket thread = some (dropped, selection) ∧
      Sound thread shared dropped (.dropClosed selection error) := by
  obtain ⟨status, idle, reserved, stands, bears⟩ := fits
  have idle : (shared.word thread).phase = .idle := idle
  have closes : (shared.word thread).closed = true → shared.closed = true := by
    intro closed
    have shut : (shared.word thread).closed = decide (status = .shut) := bears.closed
    rw [closed] at shut
    exact stands.closed (of_decide_eq_true shut.symm)
  have resource : (shared.word thread).resource = status.selection? := bears.resource
  cases found : shared.entries.find? fun entry => entry.wait = thread with
  | none =>
      have absent : ¬ (shared.view thread).queued := by
        intro queued
        obtain ⟨entry, member, same⟩ := List.mem_map.mp queued
        simpa [same] using List.find?_eq_none.mp found entry member
      have leaves : (shared.view thread).Leaves status.selection? :=
        ⟨idle, absent, reserved, stands.selected, stands.carried⟩
      cases taken : status.selection? with
      | none =>
          refine ⟨shared, none, ?_, .still inv ⟨taken ▸ leaves, closes⟩ trivial⟩
          rw [Shared.dropTicket, found]
          simp only [tryTakeResource_idle idle, resource, taken]
      | some selection =>
          refine ⟨shared.setWord thread ((shared.word thread).withResource none), some selection,
            ?_, ?_⟩
          · rw [Shared.dropTicket, found]
            simp only [tryTakeResource_idle idle, resource, taken]
          · rw [taken] at leaves
            exact .word inv ⟨⟨idle, absent, reserved, leaves.selected, leaves.carried⟩, closes⟩
              trivial (.inl (unclaimed_of_idle idle))
  | some entry =>
      have queued : (shared.view thread).queued := by
        have same : entry.wait = thread := by simpa using List.find?_some found
        exact List.mem_map.mpr ⟨entry, List.mem_of_find?_eq_some found, same⟩
      cases stands.of_queued queued
      have left : ∀ other, other ∈ (shared.entries.eraseP fun entry => entry.wait = thread).map
          Entry.wait ↔ other ≠ thread ∧ other ∈ shared.entries.map Entry.wait := by
        intro other
        rw [waits_erased, inv.waits.mem_erase_iff]
      refine ⟨{ shared with
        entries := shared.entries.eraseP fun entry => entry.wait = thread }, none, ?_, ?_, ?_,
        trivial, ?_, fun _ _ _ _ owes => owes.keep rfl rfl⟩
      · rw [Shared.dropTicket, found]
      · have sublist := arrivals_erased shared.entries thread
        exact { inv with
          waits := inv.waits.sublist (sublist.map _)
          sorted := inv.sorted.sublist (sublist.map _)
          arrived := fun entry member => inv.arrived entry (sublist.subset member)
          shut := fun closed => ⟨List.eq_nil_of_sublist_nil ((inv.shut closed).1 ▸ sublist),
            (inv.shut closed).2⟩
          idle := fun _ => inv.idle (List.ne_nil_of_mem (List.mem_of_find?_eq_some found)) }
      · have view : ({ shared with
            entries := shared.entries.eraseP fun entry => entry.wait = thread } : Shared ι).view
              thread = { shared.view thread with queued := False } := by
          simp [Shared.view, left]
        rw [view]
        exact ⟨⟨idle, id, reserved, stands.selected, stands.carried⟩, closes⟩
      · intro other differ
        apply View.Move.of_eq
        simp [Shared.view, left, differ]

end VThread.Gate
