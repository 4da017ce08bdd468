import VThread.Gate.Tickets

/-!
# Signals, broadcasts and closes

The sections that decide on queued tickets.
-/

namespace VThread.Gate

open VThread.Lib VThread.Wait

variable {ι : Type} [DecidableEq ι] {thread other task : ι} {shared shared' : Shared ι}
  {pc pc' : Pc ι}

/-! ## Signals -/

/-- A permit leaves the call that carries it. -/
theorem Accounts.drop {available successes issued : Nat} {closed : Bool}
    {permits : List (Place ι)} (accounts : Accounts available successes issued closed permits)
    (member : .carried thread ∈ permits) {target : Place ι} (untaken : target ≠ .taken)
    (kept : closed = false → target ≠ .discarded) :
    Accounts (available + if target = .stored then 1 else 0) successes issued closed
      (permits.replace (.carried thread) target) := by
  have moved := @Accounts.move _ _ _ _ _ _ _ accounts (.carried thread) target member
    (by simp) kept
  simpa [untaken] using moved

/-- The view of a thread whose call has dropped its permit elsewhere. -/
theorem view_dropped (away : (shared.view thread).Away 1) {target : Place ι}
    (elsewhere : target ≠ .selected thread ∧ target ≠ .carried thread) :
    (shared.move (.carried thread) target).view thread =
      { shared.view thread with carried := 0 } := by
  have carried : shared.permits.count (.carried thread) = 1 := away.carried
  have none : (shared.permits.replace (.carried thread) target).count (.carried thread) = 0 := by
    rw [count_move_source elsewhere.2.symm, carried]
  have same : (shared.permits.replace (.carried thread) target).count (.selected thread) =
      shared.permits.count (.selected thread) :=
    count_move_other (by simp) elsewhere.1.symm
  simp [Shared.view, Shared.move, none, same]

/-- A signal that finds no ticket, or a closed gate, puts its permit away. -/
theorem dropped_sound (inv : shared.Inv) (away : (shared.view thread).Away 1)
    (target : Place ι) (available : Nat)
    (unheld : ∀ other, target ≠ .selected other ∧ target ≠ .carried other)
    (untaken : target ≠ .taken) (kept : shared.closed = false → target ≠ .discarded)
    (empty : shared.entries = []) (runs : target = .stored → shared.closed = false)
    (stored : available = shared.available + if target = .stored then 1 else 0)
    (last : Last) :
    Sound thread shared { shared.move (.carried thread) target with available }
      (.rest last) := by
  have accounts : Accounts available shared.successes shared.issued shared.closed
      (shared.permits.replace (.carried thread) target) :=
    stored ▸ inv.accounts.drop away.carries untaken kept
  refine ⟨?_, ?_, trivial, ?_, fun _ _ _ _ owes => owes.keep rfl rfl⟩
  · exact { inv with
      shut := by
        intro closed
        refine ⟨empty, ?_⟩
        change available = 0
        rw [stored, (inv.shut closed).2, if_neg]
        intro stores
        exact absurd (runs stores) (by rw [show shared.closed = true from closed]; simp)
      idle := fun waiting => absurd empty waiting
      accounts := accounts }
  · have view := view_dropped away (unheld thread)
    change Fits ((shared.move (.carried thread) target).view thread) _
    rw [view]
    exact ⟨away.idle, away.openCell, away.queued, away.reserved, away.selected, rfl⟩
  · intro other differ
    apply View.Move.of_eq
    have same : (shared.move (.carried thread) target).view other = shared.view other :=
      view_move (by simp [differ.symm]) (unheld other)
    exact same

/-- A thread whose call carries a permit is in no queue. -/
theorem front_differs {carried : Nat} (away : (shared.view thread).Away carried)
    {entry : Entry ι} {entries : List (Entry ι)} (split : shared.entries = entry :: entries) :
    entry.wait ≠ thread := by
  intro same
  apply away.queued
  change thread ∈ shared.entries.map Entry.wait
  rw [split, ← same]
  exact List.mem_cons_self

/-- The queue behind its front. -/
theorem Shared.Inv.rest (inv : shared.Inv) {entry : Entry ι} {entries : List (Entry ι)}
    (split : shared.entries = entry :: entries) :
    { shared with entries }.Inv ∧ ∀ other, other ∈ entries.map Entry.wait ↔
      other ∈ shared.entries.map Entry.wait ∧ other ≠ entry.wait := by
  have waits := inv.waits
  have sorted := inv.sorted
  have arrived := inv.arrived
  rw [split] at waits sorted arrived
  obtain ⟨absent, waits⟩ := List.nodup_cons.mp waits
  constructor
  · exact { inv with
      waits := waits
      sorted := (List.pairwise_cons.mp sorted).2
      arrived := fun other member => arrived other (List.mem_cons_of_mem _ member)
      shut := by
        intro closed
        have empty := (inv.shut closed).1
        rw [split] at empty
        cases empty
      idle := fun _ => inv.idle (by rw [split]; simp) }
  · intro other
    rw [split, List.map_cons, List.mem_cons]
    constructor
    · intro member
      refine ⟨.inr member, ?_⟩
      rintro rfl
      exact absent member
    · rintro ⟨same | member, differ⟩
      · exact absurd same differ
      · exact member

/-- A ticket that can take no selection is passed over. -/
theorem passed_sound (inv : shared.Inv) (away : (shared.view thread).Away 1)
    {entry : Entry ι} {entries : List (Entry ι)} (split : shared.entries = entry :: entries)
    (unbound : (shared.word entry.wait).phase ≠ .binding)
    (refuses : ∀ selection, (shared.word entry.wait).resourceOffer selection = none)
    (last : Last) : Sound thread shared { shared with entries } (.signal last) := by
  obtain ⟨rest, left⟩ := inv.rest split
  have differ := front_differs away split
  refine ⟨rest, ?_, trivial, ?_, fun _ _ _ _ owes => owes.keep rfl rfl⟩
  · have view : { shared with entries }.view thread = shared.view thread := by
      simp [Shared.view, left, differ.symm]
    rw [view]
    exact away
  · intro other _
    by_cases front : other = entry.wait
    · subst front
      have queued : (shared.view entry.wait).queued := by
        change entry.wait ∈ shared.entries.map Entry.wait
        rw [split]
        exact List.mem_cons_self
      have view : { shared with entries }.view entry.wait =
          { shared.view entry.wait with queued := False } := by
        simp [Shared.view, left]
      rw [view]
      exact .refused queued unbound refuses
    · apply View.Move.of_eq
      simp [Shared.view, left, front]

/-- The front ticket is selected. -/
theorem selected_sound (inv : shared.Inv) (away : (shared.view thread).Away 1)
    {entry : Entry ι} {entries : List (Entry ι)} (split : shared.entries = entry :: entries)
    {next : WaitWord} (offer : Offered .permit (shared.word entry.wait) next) (last : Last) :
    Sound thread shared { (shared.setWord entry.wait next).move (.carried thread)
      (.selected entry.wait) with entries } (.rest last) := by
  obtain ⟨rest, left⟩ := inv.rest split
  have differ := front_differs away split
  have unclaimed : (shared.word entry.wait).isClaimed = false := by
    obtain ⟨-, -, -, ⟨idle, -⟩ | ⟨active, -⟩⟩ := offer
    · exact unclaimed_of_idle idle
    · exact unclaimed_of_active active
  have word : (shared.setWord entry.wait next).Inv := inv.setWord fun active => by
    obtain ⟨-, -, -, ⟨idle, rfl⟩ | ⟨-, rfl⟩⟩ := offer
    · have active : (shared.word entry.wait).phase = .active := active
      rw [idle] at active
      cases active
    · cases active
  have accounts : Accounts shared.available shared.successes shared.issued shared.closed
      (shared.permits.replace (.carried thread) (.selected entry.wait)) := by
    simpa using @Accounts.drop _ _ _ _ _ _ _ _ inv.accounts away.carries (.selected entry.wait)
      (by simp) (by simp)
  refine ⟨?_, ?_, trivial, ?_, ?_⟩
  · exact { rest with accounts := accounts, active := word.active }
  · have view := view_dropped away (⟨by simp [differ], by simp⟩ :
      Place.selected entry.wait ≠ .selected thread ∧ Place.selected entry.wait ≠ .carried thread)
    have same : ({ (shared.setWord entry.wait next).move (.carried thread)
        (.selected entry.wait) with entries } : Shared ι).view thread =
          (shared.move (.carried thread) (.selected entry.wait)).view thread := by
      simp [Shared.view, Shared.move, left, differ.symm, Shared.setWord]
    rw [same, view]
    exact ⟨away.idle, away.openCell, away.queued, away.reserved, away.selected, rfl⟩
  · intro other apart
    by_cases front : other = entry.wait
    · subst front
      have queued : (shared.view entry.wait).queued := by
        change entry.wait ∈ shared.entries.map Entry.wait
        rw [split]
        exact List.mem_cons_self
      have view : ({ (shared.setWord entry.wait next).move (.carried thread)
          (.selected entry.wait) with entries } : Shared ι).view entry.wait =
            { shared.view entry.wait with
              word := next
              queued := False
              selected := (shared.view entry.wait).selected + permitsOf (some .permit) } := by
        have grown := @count_move_target _ _ shared.permits _ (.selected entry.wait)
          away.carries (by simp)
        have others : (shared.permits.replace (.carried thread) (.selected entry.wait)).count
            (.carried entry.wait) = shared.permits.count (.carried entry.wait) :=
          count_move_other (by simp [differ]) (by simp)
        simp [Shared.view, Shared.move, left, grown, others, Shared.setWord, permitsOf]
      rw [view]
      exact .offered .permit next queued offer
    · apply View.Move.of_eq
      have moved := @view_move ι _ other shared (.carried thread) (.selected entry.wait)
        (by simp [apart.symm]) (by simp [Ne.symm front])
      rw [← moved]
      simp [Shared.view, Shared.move, left, front, Shared.setWord]
  · intro other _ task claimed owes
    have kept : Owes (shared.setWord entry.wait next) other task claimed :=
      owes_setWord owes (.inl unclaimed)
    exact kept.keep rfl rfl

/-! ## Broadcasts and closes -/

/-- Every queued cell is decided upon once, and no other cell changes. -/
theorem decideAll_spec {decide : WaitWord → Option (WaitWord × Bool)}
    {entries : List (Entry ι)} {word word' : ι → WaitWord}
    (distinct : (entries.map Entry.wait).Nodup)
    (decides : decideAll decide entries word = some word') (other : ι) :
    (other ∉ entries.map Entry.wait → word' other = word other) ∧
      (other ∈ entries.map Entry.wait →
        ∃ changed, decide (word other) = some (word' other, changed)) := by
  induction entries generalizing word with
  | nil =>
      cases decides
      exact ⟨fun _ => rfl, fun member => absurd member List.not_mem_nil⟩
  | cons entry entries ih =>
      rw [decideAll] at decides
      obtain ⟨absent, distinct⟩ := List.nodup_cons.mp distinct
      split at decides
      · cases decides
      · rename_i next changed decided
        obtain ⟨unchanged, changes⟩ := ih distinct decides
        by_cases front : other = entry.wait
        · subst front
          refine ⟨fun away => absurd List.mem_cons_self away, fun _ => ⟨changed, ?_⟩⟩
          rw [unchanged absent, Function.update_self, decided]
        · rw [Function.update_of_ne front] at unchanged changes
          rw [List.map_cons, List.mem_cons, not_or]
          exact ⟨fun away => unchanged away.2,
            fun member => changes (member.resolve_left front)⟩

/-- An offer leaves a claim to its claimant. -/
theorem offer_claimed {selection : ResourceSelection} {word next : WaitWord} {changed : Bool}
    (offer : offerResource selection word = some (next, changed))
    (claimed : word.isClaimed = true) : next = word := by
  cases changed with
  | false => exact (refused offer).1
  | true =>
      obtain ⟨-, -, -, ⟨idle, -⟩ | ⟨active, -⟩⟩ := offered offer
      · rw [unclaimed_of_idle idle] at claimed
        cases claimed
      · rw [unclaimed_of_active active] at claimed
        cases claimed

/-- Words after an offer store no permit while they are active. -/
theorem offer_active {selection : ResourceSelection} {word next : WaitWord} {changed : Bool}
    (offer : offerResource selection word = some (next, changed))
    (before : word.phase = .active → word.permit = false) :
    next.phase = .active → next.permit = false := by
  intro active
  cases changed with
  | false =>
      rw [(refused offer).1] at active ⊢
      exact before active
  | true =>
      obtain ⟨-, -, -, ⟨idle, rfl⟩ | ⟨-, rfl⟩⟩ := offered offer
      · have active : word.phase = .active := active
        rw [idle] at active
        cases active
      · cases active

theorem broadcast_sound (inv : shared.Inv) (away : (shared.view thread).Away 0)
    (taken : shared.broadcast = some shared') (last : Last) :
    Sound thread shared shared' (.rest last) := by
  rw [Shared.broadcast, Option.map_eq_some_iff] at taken
  obtain ⟨word, decides, rfl⟩ := taken
  have spec := fun other => decideAll_spec inv.waits decides other
  have views : ∀ other, other ∉ shared.entries.map Entry.wait →
      ({ shared with word, entries := [] } : Shared ι).view other = shared.view other := by
    intro other absent
    simp only [Shared.view, (spec other).1 absent, List.map_nil, List.not_mem_nil, absent]
  refine ⟨?_, ?_, trivial, ?_, ?_⟩
  · exact { inv with
      waits := List.nodup_nil
      sorted := .nil
      arrived := by rintro _ ⟨⟩
      shut := fun closed => ⟨rfl, (inv.shut closed).2⟩
      idle := fun waiting => absurd rfl waiting
      active := by
        intro other active
        by_cases member : other ∈ shared.entries.map Entry.wait
        · obtain ⟨changed, offer⟩ := (spec other).2 member
          exact offer_active offer (inv.active other) active
        · have same : word other = shared.word other := (spec other).1 member
          have active : (word other).phase = .active := active
          change (word other).permit = false
          rw [same] at active ⊢
          exact inv.active other active }
  · rw [views thread away.queued]
    exact away
  · intro other _
    by_cases member : other ∈ shared.entries.map Entry.wait
    · obtain ⟨changed, offer⟩ := (spec other).2 member
      have view : ({ shared with word, entries := [] } : Shared ι).view other =
          { shared.view other with word := word other, queued := False } := by
        simp [Shared.view]
      rw [view]
      cases changed with
      | true => exact .offered .broadcast (word other) member (offered offer)
      | false =>
          obtain ⟨same, unbound, refuses⟩ := refused offer
          rw [same]
          exact .refused member unbound refuses
    · exact .of_eq (views other member)
  · intro other _ task claimed owes
    refine ⟨owes.publisher, owes.isClaimed, owes.permit, ?_⟩
    have same : word task = shared.word task := by
      by_cases member : task ∈ shared.entries.map Entry.wait
      · obtain ⟨changed, offer⟩ := (spec task).2 member
        exact offer_claimed offer (WaitWord.isClaimed_of_held owes.held owes.isClaimed)
      · exact (spec task).1 member
    change word task = claimed ∨ word task = claimed.withPermit true
    rw [same]
    exact owes.held

theorem close_sound (inv : shared.Inv) (away : (shared.view thread).Away 0)
    (taken : shared.close = some shared') (last : Last) :
    Sound thread shared shared' (.rest last) := by
  rw [Shared.close, Option.map_eq_some_iff] at taken
  obtain ⟨word, decides, rfl⟩ := taken
  have spec := fun other => decideAll_spec inv.waits decides other
  have counts : ∀ place : Place ι, place ≠ .stored → place ≠ .discarded →
      (shared.permits.map fun place => if place = .stored then .discarded else place).count
        place = shared.permits.count place :=
    fun place stored discarded => count_close shared.permits stored discarded
  have views : ∀ other, other ∉ shared.entries.map Entry.wait →
      ({ shared with
        word
        closed := true
        available := 0
        entries := []
        permits := shared.permits.map fun place =>
          if place = .stored then .discarded else place } : Shared ι).view other =
        { shared.view other with closed := true } := by
    intro other absent
    simp only [Shared.view, (spec other).1 absent, List.map_nil, List.not_mem_nil, absent,
      counts (.selected other) (by simp) (by simp), counts (.carried other) (by simp) (by simp)]
  refine ⟨?_, ?_, trivial, ?_, ?_⟩
  · exact { inv with
      waits := List.nodup_nil
      sorted := .nil
      arrived := by rintro _ ⟨⟩
      shut := fun _ => ⟨rfl, rfl⟩
      idle := fun _ => rfl
      accounts := inv.accounts.close
      active := by
        intro other active
        have active : (word other).phase = .active := active
        change (word other).permit = false
        by_cases member : other ∈ shared.entries.map Entry.wait
        · obtain ⟨changed, closing⟩ := (spec other).2 member
          obtain ⟨-, -, ⟨-, same⟩ | ⟨-, ⟨-, same⟩ | ⟨-, same⟩⟩⟩ := closes closing
          · rw [same] at active ⊢
            exact inv.active other active
          · rw [same]
            rfl
          · rw [same]
            rfl
        · have same : word other = shared.word other := (spec other).1 member
          rw [same] at active ⊢
          exact inv.active other active }
  · rw [views thread away.queued]
    exact away.gate
  · intro other _
    by_cases member : other ∈ shared.entries.map Entry.wait
    · obtain ⟨changed, closing⟩ := (spec other).2 member
      have view : ({ shared with
          word
          closed := true
          available := 0
          entries := []
          permits := shared.permits.map fun place =>
            if place = .stored then .discarded else place } : Shared ι).view other =
          { shared.view other with word := word other, queued := False, closed := true } := by
        simp [Shared.view, counts]
      rw [view]
      exact .closed (word other) member (closes closing)
    · rw [views other member]
      exact .gate member
  · intro other _ task claimed owes
    refine ⟨owes.publisher, owes.isClaimed, owes.permit, ?_⟩
    have same : word task = shared.word task := by
      by_cases member : task ∈ shared.entries.map Entry.wait
      · obtain ⟨changed, closing⟩ := (spec task).2 member
        have unclaimed := (closes closing).unclaimed
        cases unclaimed.symm.trans (WaitWord.isClaimed_of_held owes.held owes.isClaimed)
      · exact (spec task).1 member
    change word task = claimed ∨ word task = claimed.withPermit true
    rw [same]
    exact owes.held

end VThread.Gate
