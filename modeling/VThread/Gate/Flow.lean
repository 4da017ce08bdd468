import VThread.Gate.Reachable

/-!
# How permits flow

What every step makes of the permits of a gate.  Only six kinds of steps move any.
-/

namespace VThread.Gate

open VThread.Lib VThread.Wait

variable {ι : Type} [DecidableEq ι] {thread : ι} {shared shared' : Shared ι} {pc pc' : Pc ι}
  {choice : Choice ι}

/-- The counters and the ledger stay as they are. -/
structure Still (shared shared' : Shared ι) : Prop where
  permits : shared'.permits = shared.permits
  available : shared'.available = shared.available
  successes : shared'.successes = shared.successes
  issued : shared'.issued = shared.issued
  closed : shared'.closed = shared.closed
  maximum : shared'.maximum = shared.maximum

omit [DecidableEq ι] in
theorem Still.refl (shared : Shared ι) : Still shared shared := ⟨rfl, rfl, rfl, rfl, rfl, rfl⟩

/-- Where a call may move a permit. -/
def Pc.moves : Pc ι → Bool
  | .rest _ | .tryTake _ (.exchange _) | .subscribe | .complete _ | .release _ _ | .signal _ => true
  | _ => false

/-! ## Sections -/

/-- A section of `signal` selects the front ticket, passes it over when it can take no selection,
or finds no ticket and stores the permit or merges it with a stored one; a closed gate drops it. -/
inductive Signals (thread : ι) (shared : Shared ι) (last : Last) : Shared ι → Pc ι → Prop where
  | discarded : shared.closed = true →
      Signals thread shared last (shared.move (.carried thread) .discarded) (.rest last)
  | stored : shared.closed = false → shared.entries = [] → shared.available < shared.maximum →
      Signals thread shared last
        { shared.move (.carried thread) .stored with available := shared.available + 1 }
        (.rest last)
  | coalesced : shared.closed = false → shared.entries = [] →
      shared.maximum ≤ shared.available →
      Signals thread shared last (shared.move (.carried thread) .coalesced) (.rest last)
  | selected {entry : Entry ι} {entries : List (Entry ι)} {next : WaitWord} :
      shared.closed = false → shared.entries = entry :: entries →
      Offered .permit (shared.word entry.wait) next →
      Signals thread shared last
        { (shared.setWord entry.wait next).move (.carried thread) (.selected entry.wait) with
          entries }
        (.rest last)
  | passed {entry : Entry ι} {entries : List (Entry ι)} :
      shared.closed = false → shared.entries = entry :: entries →
      (shared.word entry.wait).phase ≠ .binding →
      (∀ selection, (shared.word entry.wait).resourceOffer selection = none) →
      Signals thread shared last { shared with entries } (.signal last)

theorem signals (last : Last)
    (taken : step thread choice shared (.signal last) = some (shared', pc')) :
    Signals thread shared last shared' pc' := by
  rw [step, Option.map_eq_some_iff] at taken
  obtain ⟨⟨signalled, ends⟩, signals, equal⟩ := taken
  rw [Shared.signal] at signals
  split at signals
  · rename_i closed
    cases signals
    cases equal
    exact .discarded closed
  · rename_i isOpen
    have isOpen := (Bool.not_eq_true _).mp isOpen
    split at signals
    · rename_i empty
      cases signals
      cases equal
      rw [Shared.storePermit]
      split
      · rename_i room
        exact .stored isOpen empty room
      · rename_i full
        exact .coalesced isOpen empty (Nat.le_of_not_lt full)
    · rename_i entry entries split
      split at signals
      · cases signals
      · rename_i next offer
        cases signals
        cases equal
        exact .selected isOpen split (offered offer)
      · rename_i next offer
        cases signals
        cases equal
        obtain ⟨-, unbound, refuses⟩ := refused offer
        exact .passed isOpen split unbound refuses

/-- A broadcast selects every queued ticket that can take a selection, and moves no permit. -/
structure Broadcasts (shared shared' : Shared ι) : Prop where
  still : Still shared shared'
  entries : shared'.entries = []
  queued : ∀ entry ∈ shared.entries,
    Offered .broadcast (shared.word entry.wait) (shared'.word entry.wait) ∨
      shared'.word entry.wait = shared.word entry.wait ∧
        ∀ selection, (shared.word entry.wait).resourceOffer selection = none
  others : ∀ other, other ∉ shared.entries.map Entry.wait → shared'.word other = shared.word other

theorem broadcasts (inv : shared.Inv) (taken : shared.broadcast = some shared') :
    Broadcasts shared shared' := by
  rw [Shared.broadcast, Option.map_eq_some_iff] at taken
  obtain ⟨word, decides, rfl⟩ := taken
  have spec := fun other => decideAll_spec inv.waits decides other
  refine ⟨⟨rfl, rfl, rfl, rfl, rfl, rfl⟩, rfl, ?_, fun other absent => (spec other).1 absent⟩
  intro entry member
  obtain ⟨changed, offer⟩ := (spec entry.wait).2 (List.mem_map_of_mem member)
  cases changed with
  | true => exact .inl (offered offer)
  | false =>
      obtain ⟨same, -, refuses⟩ := refused offer
      exact .inr ⟨same, refuses⟩

/-- A subscription is refused by a closed gate, takes a stored permit, or is queued behind all
others. -/
inductive Subscribes (thread : ι) (shared shared' : Shared ι) : Pc ι → Prop where
  | closed : shared.closed = true → Still shared shared' → shared'.entries = shared.entries →
      Subscribes thread shared shared' (.rest (.error .closed))
  | granted : shared.closed = false → shared.available ≠ 0 →
      shared'.permits = shared.permits.replace .stored (.selected thread) →
      shared'.available + 1 = shared.available → shared'.successes = shared.successes →
      shared'.issued = shared.issued → shared'.closed = shared.closed →
      shared'.maximum = shared.maximum → shared'.entries = shared.entries →
      Subscribes thread shared shared' (.waiting .begin)
  | queued : shared.closed = false → shared.available = 0 → Still shared shared' →
      shared'.entries = shared.entries ++ [⟨thread, shared.arrivals⟩] →
      Subscribes thread shared shared' (.waiting .begin)

theorem subscribes (inv : shared.Inv) (fits : Fits (shared.view thread) (.subscribe : Pc ι))
    (taken : step thread choice shared .subscribe = some (shared', pc')) :
    Subscribes thread shared shared' pc' := by
  rw [step] at taken
  by_cases closed : shared.closed = true
  · obtain ⟨subscribes, -⟩ := refused_sound inv fits choice.timed closed
    rw [subscribes] at taken
    cases taken
    exact .closed closed ⟨rfl, rfl, rfl, rfl, rfl, rfl⟩ rfl
  · have isOpen := (Bool.not_eq_true _).mp closed
    by_cases none : shared.available = 0
    · rw [Shared.subscribeParker, if_neg closed, if_neg (by simp [none])] at taken
      cases taken
      exact .queued isOpen none ⟨rfl, rfl, rfl, rfl, rfl, rfl⟩ rfl
    · have offer : offerResource .permit (shared.word thread) = _ := offer_fresh fits.1 .permit
      rw [Shared.subscribeParker, if_neg closed, if_pos none] at taken
      simp only [offer] at taken
      cases taken
      exact .granted isOpen none rfl (Nat.succ_pred_eq_of_ne_zero none) rfl rfl rfl rfl rfl

/-! ## Calls -/

/-- What a call of a resting thread makes of the permits. -/
inductive Starts (thread : ι) (shared shared' : Shared ι) : Call ι → Pc ι → Prop where
  | signal : shared' = { shared with
        issued := shared.issued + 1, permits := shared.permits ++ [.carried thread] } →
      Starts thread shared shared' .signal (.signal (.ok ()))
  | broadcast : Broadcasts shared shared' → Starts thread shared shared' .broadcast (.rest (.ok ()))
  | close : shared.close = some shared' → Starts thread shared shared' .close (.rest (.ok ()))
  | other {call : Call ι} {pc' : Pc ι} : call ≠ .signal → call ≠ .broadcast → call ≠ .close →
      Still shared shared' → shared'.entries = shared.entries →
        Starts thread shared shared' call pc'

theorem starts (inv : shared.Inv)
    (taken : choice.call.start thread choice shared = some (shared', pc')) :
    Starts thread shared shared' choice.call pc' := by
  cases call : choice.call with
  | tryTake | take =>
      rw [call] at taken
      cases taken
      exact .other (by simp) (by simp) (by simp) (.refl _) rfl
  | signal =>
      rw [call] at taken
      cases taken
      exact .signal rfl
  | broadcast =>
      rw [call, Call.start, Option.map_eq_some_iff] at taken
      obtain ⟨result, broadcasts', equal⟩ := taken
      cases equal
      exact .broadcast (broadcasts inv broadcasts')
  | close =>
      rw [call, Call.start, Option.map_eq_some_iff] at taken
      obtain ⟨result, closes, equal⟩ := taken
      cases equal
      exact .close closes
  | elsewhere | query =>
      rw [call, Call.start] at taken
      split at taken <;> cases taken
      exact .other (by simp) (by simp) (by simp) ⟨rfl, rfl, rfl, rfl, rfl, rfl⟩ rfl
  | select =>
      rw [call, Call.start] at taken
      split at taken
      · split at taken <;> cases taken
        exact .other (by simp) (by simp) (by simp) ⟨rfl, rfl, rfl, rfl, rfl, rfl⟩ rfl
      · cases taken

/-- What a step makes of the permits. -/
inductive Flow (thread : ι) (call : Call ι) (shared shared' : Shared ι) : Pc ι → Pc ι → Prop where
  | start {last : Last} {pc' : Pc ι} : Starts thread shared shared' call pc' →
      Flow thread call shared shared' (.rest last) pc'
  | take {waits : Bool} : shared.available ≠ 0 →
      shared' = { shared.succeed .stored with available := shared.available - 1 } →
      Flow thread call shared shared' (.tryTake waits (.exchange shared.available)) (.rest (.ok ()))
  | retry {waits : Bool} {available : Nat} : shared' = shared →
      Flow thread call shared shared' (.tryTake waits (.exchange available))
        (.observed waits shared.available)
  | subscribe {pc' : Pc ι} : Subscribes thread shared shared' pc' →
      Flow thread call shared shared' .subscribe pc'
  | complete (selection : ResourceSelection) : shared' = (match selection with
        | .permit => (shared.released thread).succeed (.selected thread)
        | .broadcast => shared.released thread) →
      Flow thread call shared shared' (.complete selection) (.rest (.ok ()))
  | pass (error : Error) :
      shared' = (shared.released thread).move (.selected thread) (.carried thread) →
      Flow thread call shared shared' (.release (some .permit) error) (.signal (.error error))
  | release {selection : Option ResourceSelection} (error : Error) : selection ≠ some .permit →
      shared' = shared.released thread →
      Flow thread call shared shared' (.release selection error) (.rest (.error error))
  | signal {last : Last} {pc' : Pc ι} : Signals thread shared last shared' pc' →
      Flow thread call shared shared' (.signal last) pc'
  | still {pc pc' : Pc ι} : pc.moves = false → Still shared shared' →
      Flow thread call shared shared' pc pc'

theorem flow (inv : shared.Inv) (fits : Fits (shared.view thread) pc)
    (owing : Owing shared thread pc)
    (taken : step thread choice shared pc = some (shared', pc')) :
    Flow thread choice.call shared shared' pc pc' := by
  cases pc with
  | rest last => exact .start (starts inv taken)
  | tryTake waits stage =>
      have taken := Option.some.inj taken
      cases stage with
      | start | load | recheck =>
          cases taken
          exact .still rfl (.refl _)
      | exchange =>
          rw [TryTake.step] at taken
          split at taken
          · rename_i found
            cases taken
            obtain ⟨rfl, -⟩ := found
            exact .take fits.2 rfl
          · cases taken
            exact .retry rfl
  | subscribe => exact .subscribe (subscribes inv fits taken)
  | complete selection =>
      obtain ⟨releases, -⟩ := complete_sound inv fits
      rw [step, releases] at taken
      cases taken
      exact .complete selection rfl
  | release _ error =>
      obtain ⟨releases, -⟩ := release_sound inv fits
      rw [step, releases, Option.some.injEq] at taken
      dsimp only [checked] at taken
      split at taken
      · rename_i permit
        subst permit
        cases taken
        exact .pass error rfl
      · rename_i other
        cases taken
        exact .release error other rfl
  | signal last => exact .signal (signals last taken)
  | enter =>
      refine .still rfl ?_
      rw [step, Option.some.injEq] at taken
      split at taken
      · cases taken
        exact .refl _
      · split at taken <;> cases taken
        · exact ⟨rfl, rfl, rfl, rfl, rfl, rfl⟩
        · exact .refl _
        · exact .refl _
  | reserve =>
      refine .still rfl ?_
      rw [step, Option.some.injEq, Shared.reserve] at taken
      split at taken
      · rename_i reserves
        split at reserves <;> cases reserves
        cases taken
        exact ⟨rfl, rfl, rfl, rfl, rfl, rfl⟩
      · cases taken
        exact .refl _
  | waiting stage =>
      refine .still rfl ?_
      rw [step, Option.map_eq_some_iff] at taken
      obtain ⟨⟨word, next⟩, -, equal⟩ := taken
      cases next with
      | stay stage' =>
          cases equal
          exact ⟨rfl, rfl, rfl, rfl, rfl, rfl⟩
      | returns result =>
          cases result <;> cases equal <;> exact ⟨rfl, rfl, rfl, rfl, rfl, rfl⟩
      | panics =>
          cases equal
          exact ⟨rfl, rfl, rfl, rfl, rfl, rfl⟩
  | check =>
      refine .still rfl ?_
      rw [step, Option.some.injEq] at taken
      split at taken <;> cases taken <;> exact .refl _
  | loadClosed | dropClosed =>
      refine .still rfl ?_
      cases taken
      exact .refl _
  | takeResource =>
      refine .still rfl ?_
      rw [step] at taken
      split at taken <;> cases taken
      · exact .refl _
      · exact ⟨rfl, rfl, rfl, rfl, rfl, rfl⟩
  | dropTicket error =>
      refine .still rfl ?_
      rw [step, Option.map_eq_some_iff] at taken
      obtain ⟨⟨dropped, selection⟩, drops, equal⟩ := taken
      cases equal
      rw [Shared.dropTicket] at drops
      split at drops
      · cases drops
        exact ⟨rfl, rfl, rfl, rfl, rfl, rfl⟩
      · split at drops <;> cases drops
        · exact .refl _
        · exact ⟨rfl, rfl, rfl, rfl, rfl, rfl⟩
  | reset =>
      refine .still rfl ?_
      rw [step] at taken
      split at taken <;> cases taken
      · exact .refl _
      · exact ⟨rfl, rfl, rfl, rfl, rfl, rfl⟩
      · exact .refl _
  | publish _ _ last =>
      refine .still rfl ?_
      obtain ⟨published, publishes, -⟩ := publish_sound inv fits owing last
      rw [step, publishes] at taken
      cases taken
      rw [Shared.publishClaim] at publishes
      obtain ⟨word, -, equal⟩ := bind_eq_ok.mp publishes
      cases equal
      exact ⟨rfl, rfl, rfl, rfl, rfl, rfl⟩
  | panicked => exact fits.elim

end VThread.Gate
