import VThread.Carrier.Sleep

/-!
# The carrier does not sleep through work

From the moment the carrier has looked at a source of work until it blocks and is notified,
whatever a publisher adds to the source is owed to the carrier: the publisher has still to
pass the carrier's registration and its gate.
-/

namespace VThread.Carrier

open VThread.Lib VThread.Wait VThread.Wake

variable {ι : Type}

/-! ## The wake queue inside -/

section Hub

variable {hub hub' : Wake.Shared ι} {pc pc' : Wake.Pc}

/-- A step that no caller sees leaves the mailbox as it is. -/
theorem hub_unseen (inv : hub.Inv) (inv' : hub'.Inv) {party : Party ι}
    (advance : Advance party hub pc hub' pc') (unseen : pc'.event = none) :
    hub'.pending = hub.pending ∧ hub'.queue.head.sleeping = hub.queue.head.sleeping := by
  have run := inv'.run
  rw [advance_event advance, unseen, Option.toList_none, List.append_nil] at run
  have same := run.unique inv.run
  exact ⟨congrArg Mailbox.pending same, congrArg Mailbox.armed same⟩

theorem hub_seen (inv : hub.Inv) (inv' : hub'.Inv) {party : Party ι}
    (event : MailboxEvent Notice) (advance : Advance party hub pc hub' pc')
    (seen : pc'.event = some event) :
    Mailbox.Step ⟨hub.pending, hub.queue.head.sleeping⟩ event
      ⟨hub'.pending, hub'.queue.head.sleeping⟩ := by
  have run := inv'.run
  rw [advance_event advance, seen, Option.toList_some] at run
  obtain ⟨earlier, run, step⟩ := run.last
  cases run.unique inv.run
  exact step

theorem pushStep_seen (hub : Wake.Shared ι) (spurious : Bool) (notice : Notice)
    (stage : Wake.Stage) :
    (pushStep spurious hub notice stage).2.event = none ∨
      ∃ sleeping, (pushStep spurious hub notice stage).2 =
        .rest (some (.push notice, .pushed sleeping)) := by
  cases stage with
  | loadTask | storeSelection =>
      rw [pushStep]
      split
      · exact .inl rfl
      · exact .inl rfl
  | exchangeHead head =>
      rw [pushStep]
      split
      · exact .inr ⟨head.sleeping, rfl⟩
      · exact .inl rfl
  | _ => exact .inl rfl

/-- A producer is seen only by its links. -/
theorem producer_seen {id : ι} (fact : PcFact hub (.producer id) pc)
    (advance : Advance (.producer id) hub pc hub' pc') :
    pc'.event = none ∨
      ∃ notice sleeping, pc' = .rest (some (.push notice, .pushed sleeping)) := by
  obtain ⟨choice, moved⟩ := advance
  cases pc with
  | rest last =>
      obtain ⟨allows, moved⟩ := moved
      cases called : choice.call with
      | push notice =>
          rw [called, startCall] at moved
          split at moved
          · cases moved
            exact .inl rfl
          · cases moved
            exact .inl rfl
      | _ =>
          rw [called] at allows
          exact allows.elim
  | run call stage =>
      change (hub', pc') = _ at moved
      cases call with
      | push notice =>
          have seen := pushStep_seen hub choice.spurious notice stage
          change (hub', pc') = pushStep choice.spurious hub notice stage at moved
          rw [← moved] at seen
          exact seen.imp_right fun linked => ⟨notice, linked⟩
      | _ => exact fact.elim
  | panicked => exact moved.elim

end Hub

/-! ## What the carrier relies on -/

namespace Stage

/-- The changes a publisher has made visible and owes a notification for. -/
def owed : Stage → List Change
  | .addEpoch owed | .loadWaiters owed | .notifyGate owed => owed
  | _ => []

/-- The own steps left to the end of a notification. -/
def distance : Stage → Nat
  | .addEpoch _ => 3
  | .loadWaiters _ => 2
  | .notifyGate _ => 1
  | _ => 0

def ofPublisher : Stage → Bool
  | .drive _ | .popWake _ | .drain _ _ | .popScope _ _ | .takeAbort _ | .idle _ _ => false
  | _ => true

/-- A publisher calls the wake queue only to push. -/
theorem enqueues {stage : Stage} {call : Wake.Call} (called : stage.hubCall = some call)
    (publisher : stage.ofPublisher = true) : ∃ notice, stage = .enqueue notice := by
  cases stage with
  | enqueue notice => exact ⟨notice, rfl⟩
  | popWake | idle => cases publisher
  | _ => cases called

/-- The carrier holds the gate between steps. -/
def holdsGate : Stage → Bool
  | .idle _ .register | .idle _ .loadEpoch | .idle _ .armWait | .idle _ .checkStarts
  | .idle _ .sleep | .idle _ .unregister | .idle _ .unlockGate => true
  | _ => false

/-- The carrier is registered as a waiter. -/
def registered : Stage → Bool
  | .idle _ .loadEpoch | .idle _ .armWait | .idle _ .checkStarts | .idle _ .sleep
  | .idle _ .blocked | .idle _ .unregister => true
  | _ => false

/-- The carrier has seen the epoch unchanged and has not looked away since. -/
def SawEpoch (blocked : Bool) (observed : Epoch) : Stage → Prop
  | .idle episode .armWait | .idle episode .checkStarts | .idle episode .sleep =>
      episode.observed = observed
  | .idle episode .blocked => blocked = true ∧ episode.observed = observed
  | _ => False

/-- The carrier has seen no linked notice and has armed the queue. -/
def SawHub (blocked : Bool) : Stage → Prop
  | .idle _ .checkStarts | .idle _ .sleep => True
  | .idle _ .blocked => blocked = true
  | _ => False

/-- The carrier has seen no queued start. -/
def SawStarts (blocked : Bool) : Stage → Prop
  | .idle _ .sleep => True
  | .idle _ .blocked => blocked = true
  | _ => False

variable {stage : Stage} {blocked : Bool}

theorem SawStarts.hub (saw : stage.SawStarts blocked) : stage.SawHub blocked := by
  cases stage with
  | idle episode stage => cases stage <;> first | exact saw | exact saw.elim
  | _ => exact saw.elim

theorem SawHub.epoch (saw : stage.SawHub blocked) :
    ∃ observed, stage.SawEpoch blocked observed := by
  cases stage with
  | idle episode stage =>
      cases stage with
      | checkStarts => exact ⟨_, rfl⟩
      | sleep => exact ⟨_, rfl⟩
      | blocked => exact ⟨_, saw, rfl⟩
      | _ => exact saw.elim
  | _ => exact saw.elim

theorem SawEpoch.mono {observed : Epoch} {earlier : Bool}
    (unblocked : blocked = true → earlier = true) (saw : stage.SawEpoch blocked observed) :
    stage.SawEpoch earlier observed := by
  cases stage with
  | idle episode stage =>
      cases stage <;> first | exact saw | exact ⟨unblocked saw.1, saw.2⟩
  | _ => exact saw

theorem SawHub.mono {earlier : Bool} (unblocked : blocked = true → earlier = true)
    (saw : stage.SawHub blocked) : stage.SawHub earlier := by
  cases stage with
  | idle episode stage => cases stage <;> first | exact saw | exact unblocked saw
  | _ => exact saw

theorem SawStarts.mono {earlier : Bool} (unblocked : blocked = true → earlier = true)
    (saw : stage.SawStarts blocked) : stage.SawStarts earlier := by
  cases stage with
  | idle episode stage => cases stage <;> first | exact saw | exact unblocked saw
  | _ => exact saw

/-- Who watches is registered, and either holds the gate or is blocked. -/
theorem SawEpoch.watching {observed : Epoch} (saw : stage.SawEpoch blocked observed) :
    stage.registered = true ∧ (stage.holdsGate = true ∨ blocked = true) := by
  cases stage with
  | idle episode stage =>
      cases stage with
      | armWait => exact ⟨rfl, .inl rfl⟩
      | checkStarts => exact ⟨rfl, .inl rfl⟩
      | sleep => exact ⟨rfl, .inl rfl⟩
      | blocked => exact ⟨rfl, .inr saw.1⟩
      | _ => exact saw.elim
  | _ => exact saw.elim

end Stage

/-- The carrier's part, given the changes owed to it. -/
structure Vigil (owed : Change → Prop) (shared : Shared ι) (stage : Stage) : Prop where
  gate : shared.control.signal.gate = stage.holdsGate
  waiters : shared.control.signal.waiters = if stage.registered then 1 else 0
  blocked : shared.control.signal.blocked = true →
    ∃ episode, stage = .idle episode .blocked
  epoch : ∀ observed, stage.SawEpoch shared.control.signal.blocked observed →
    shared.control.signal.epoch = observed ∨ owed .epoch
  hub : stage.SawHub shared.control.signal.blocked →
    shared.hub.pending = [] ∧ shared.hub.queue.head.sleeping = true ∨
      ∃ notice ∈ shared.hub.pending, owed (.wake notice)
  starts : stage.SawStarts shared.control.signal.blocked →
    shared.control.inbox.state.starts = [] ∨
      ∃ packet ∈ shared.control.inbox.state.starts, owed (.start packet)

/-! ## Steps of a publisher -/

/-- What a publisher's step does to the sources of work and to what it owes. -/
structure Published (shared : Shared ι) (stage : Stage) (shared' : Shared ι) (stage' : Stage) :
    Prop where
  gate : shared'.control.signal.gate = shared.control.signal.gate
  waiters : shared'.control.signal.waiters = shared.control.signal.waiters
  blocked : shared'.control.signal.blocked = true → shared.control.signal.blocked = true
  epoch : shared'.control.signal.epoch = shared.control.signal.epoch ∨ .epoch ∈ stage'.owed
  hub : shared'.hub.pending = shared.hub.pending ∧
      shared'.hub.queue.head.sleeping = shared.hub.queue.head.sleeping ∨
    ∃ notice, shared'.hub.pending = shared.hub.pending ++ [notice] ∧
      (shared.hub.queue.head.sleeping = true → .wake notice ∈ stage'.owed)
  starts : shared'.control.inbox.state.starts = shared.control.inbox.state.starts ∨
    ∃ packet, shared'.control.inbox.state.starts =
        shared.control.inbox.state.starts ++ [packet] ∧ .start packet ∈ stage'.owed
  owed : shared.control.signal.waiters ≠ 0 →
    (shared.control.signal.gate = true ∨ shared'.control.signal.blocked = true) →
    ∀ change ∈ stage.owed, change ∈ stage'.owed

section Publisher

variable {shared : Shared ι} {stage : Stage}

theorem Published.stay {stage' : Stage} (owed : stage.owed = []) :
    Published shared stage shared stage' where
  gate := rfl
  waiters := rfl
  blocked := fun blocked => blocked
  epoch := .inl rfl
  hub := .inl ⟨rfl, rfl⟩
  starts := .inl rfl
  owed := by
    intro _ _ change member
    rw [owed] at member
    cases member

theorem Inbox.push_eq {inbox inbox' : Inbox} {packet : SpawnPacket} {wasEmpty : Bool}
    (pushed : inbox.push packet = some (inbox', wasEmpty)) :
    inbox' = inbox.setStarts (inbox.state.starts ++ [packet]) ∧
      wasEmpty = inbox.state.starts.isEmpty := by
  rw [Inbox.push] at pushed
  split at pushed
  · cases pushed
  · cases pushed
    exact ⟨rfl, rfl⟩

theorem publisherStep_published {choice : Choice} {control : Control} {stage' : Stage}
    (stepped : publisherStep choice shared.control stage = some (control, stage')) :
    Published shared stage { shared with control } stage' := by
  cases stage with
  | rest =>
      cases stepped
      exact .stay rfl
  | push packet =>
      rw [publisherStep] at stepped
      split at stepped
      · cases stepped
        exact .stay rfl
      · rename_i inbox wasEmpty pushed
        cases stepped
        obtain ⟨rfl, -⟩ := Inbox.push_eq pushed
        refine { (Published.stay rfl : Published shared (.push packet) shared _) with
          starts := .inr ⟨packet, rfl, ?_⟩ }
        cases wasEmpty
        · exact List.mem_singleton_self _
        · exact List.mem_singleton_self _
  | stop =>
      cases stepped
      exact { (Published.stay rfl : Published shared .stop shared .storeStopped) with
        starts := .inl rfl }
  | storeStopped =>
      cases stepped
      exact { (Published.stay rfl : Published shared .storeStopped shared (.addEpoch [])) with
        starts := .inl rfl }
  | abort scope reason =>
      cases stepped
      exact { (Published.stay rfl :
          Published shared (.abort scope reason) shared (.addEpoch [])) with
        starts := .inl rfl }
  | clearAbort scope =>
      cases stepped
      exact { (Published.stay rfl : Published shared (.clearAbort scope) shared .rest) with
        starts := .inl rfl }
  | addEpoch owed =>
      cases stepped
      exact {
        gate := rfl
        waiters := rfl
        blocked := fun blocked => blocked
        epoch := .inr (List.mem_cons_self ..)
        hub := .inl ⟨rfl, rfl⟩
        starts := .inl rfl
        owed := fun _ _ change member => List.mem_cons_of_mem _ member }
  | loadWaiters owed =>
      rw [publisherStep] at stepped
      split at stepped
      · cases stepped
        exact { (Published.stay rfl : Published shared .rest shared _) with
          owed := fun _ _ change member => member }
      · rename_i none
        cases stepped
        exact { (Published.stay rfl : Published shared .rest shared _) with
          owed := fun waiting => (none waiting).elim }
  | notifyGate owed =>
      rw [publisherStep] at stepped
      split at stepped
      · cases stepped
      · rename_i free
        cases stepped
        exact {
          gate := rfl
          waiters := rfl
          blocked := nofun
          epoch := .inl rfl
          hub := .inl ⟨rfl, rfl⟩
          starts := .inl rfl
          owed := by
            rintro _ (held | blocked)
            · exact (free held).elim
            · cases blocked }
  | _ => cases stepped

/-- A publisher's step of the wake queue. -/
theorem enqueue_published {hub : Wake.Shared ι} {pc pc' : Wake.Pc} {id : ι} {notice : Notice}
    (inv : shared.hub.Inv) (inv' : hub.Inv) (fact : PcFact shared.hub (.producer id) pc)
    (advance : Advance (.producer id) shared.hub pc hub pc') :
    Published shared (.enqueue notice) { shared with hub }
      ((Stage.enqueue notice).afterHub pc') := by
  refine { (Published.stay rfl : Published shared (.enqueue notice) shared _) with
    hub := ?_ }
  rcases producer_seen fact advance with unseen | ⟨linked, sleeping, rfl⟩
  · exact .inl (hub_unseen inv inv' advance unseen)
  · right
    have step := hub_seen inv inv' (.link linked sleeping) advance rfl
    generalize before : (⟨shared.hub.pending, shared.hub.queue.head.sleeping⟩ :
      Mailbox Notice) = mailbox at step
    generalize after : (⟨hub.pending, hub.queue.head.sleeping⟩ : Mailbox Notice) = mailbox'
      at step
    cases step
    refine ⟨linked, ?_, ?_⟩
    · exact (congrArg Mailbox.pending after).trans
        (congrArg (fun mailbox => mailbox.pending ++ [linked]) before.symm)
    · intro asleep
      have rang : sleeping = true := (congrArg Mailbox.armed before).symm.trans asleep
      rw [rang]
      exact List.mem_singleton_self _

theorem publisherStep_ofPublisher {choice : Choice} {control control' : Control}
    {stage' : Stage} (stepped : publisherStep choice control stage = some (control', stage')) :
    stage'.ofPublisher = true := by
  cases stage with
  | rest =>
      cases stepped
      cases choice.call <;> rfl
  | push packet =>
      rw [publisherStep] at stepped
      split at stepped
      · cases stepped
        rfl
      · rename_i inbox wasEmpty pushed
        cases stepped
        cases wasEmpty <;> rfl
  | loadWaiters owed =>
      rw [publisherStep] at stepped
      split at stepped
      · cases stepped
        rfl
      · cases stepped
        rfl
  | notifyGate owed =>
      rw [publisherStep] at stepped
      split at stepped
      · cases stepped
      · cases stepped
        rfl
  | stop | storeStopped | abort | clearAbort | addEpoch =>
      cases stepped
      rfl
  | _ => cases stepped

theorem enqueue_ofPublisher (notice : Notice) (pc : Wake.Pc) :
    ((Stage.enqueue notice).afterHub pc).ofPublisher = true := by
  unfold Stage.afterHub
  split <;> first | rfl | contradiction

end Publisher

/-- A publisher's step keeps what the carrier relies on. -/
theorem Vigil.published {owed owed' : Change → Prop} {shared shared' : Shared ι}
    {carrier stage stage' : Stage} (vigil : Vigil owed shared carrier)
    (published : Published shared stage shared' stage')
    (mine : ∀ change ∈ stage'.owed, owed' change)
    (kept : (∀ change ∈ stage.owed, change ∈ stage'.owed) →
      ∀ change, owed change → owed' change) : Vigil owed' shared' carrier := by
  -- while the carrier watches, the publisher cannot drop what it owes
  have still : ∀ observed, carrier.SawEpoch shared'.control.signal.blocked observed →
      ∀ change, owed change → owed' change := by
    intro observed saw
    obtain ⟨registered, watching⟩ := saw.watching
    apply kept
    apply published.owed
    · rw [vigil.waiters, registered]
      exact Nat.one_ne_zero
    · rw [vigil.gate]
      exact watching
  exact {
    gate := published.gate.trans vigil.gate
    waiters := published.waiters.trans vigil.waiters
    blocked := fun blocked => vigil.blocked (published.blocked blocked)
    epoch := by
      intro observed saw
      rcases published.epoch with same | changed
      · rw [same]
        exact (vigil.epoch observed (saw.mono published.blocked)).imp_right
          (still observed saw _)
      · exact .inr (mine _ changed)
    hub := by
      intro saw
      obtain ⟨observed, sawEpoch⟩ := saw.epoch
      have before := vigil.hub (saw.mono published.blocked)
      rcases published.hub with ⟨pending, sleeping⟩ | ⟨notice, pending, rings⟩
      · rw [pending, sleeping]
        exact before.imp_right fun ⟨notice, queued, owes⟩ =>
          ⟨notice, queued, still observed sawEpoch _ owes⟩
      · right
        rw [pending]
        rcases before with ⟨-, asleep⟩ | ⟨earlier, queued, owes⟩
        · exact ⟨notice, List.mem_append_right _ (List.mem_singleton_self _),
            mine _ (rings asleep)⟩
        · exact ⟨earlier, List.mem_append_left _ queued, still observed sawEpoch _ owes⟩
    starts := by
      intro saw
      obtain ⟨observed, sawEpoch⟩ := saw.hub.epoch
      have before := vigil.starts (saw.mono published.blocked)
      rcases published.starts with starts | ⟨packet, starts, owes⟩
      · rw [starts]
        exact before.imp_right fun ⟨packet, queued, owes⟩ =>
          ⟨packet, queued, still observed sawEpoch _ owes⟩
      · right
        rw [starts]
        exact ⟨packet, List.mem_append_right _ (List.mem_singleton_self _), mine _ owes⟩ }

theorem Vigil.mono {owed owed' : Change → Prop} {shared : Shared ι} {stage : Stage}
    (vigil : Vigil owed shared stage) (more : ∀ change, owed change → owed' change) :
    Vigil owed' shared stage :=
  { vigil with
    epoch := fun observed saw => (vigil.epoch observed saw).imp_right (more _)
    hub := fun saw => (vigil.hub saw).imp_right fun ⟨notice, queued, owes⟩ =>
      ⟨notice, queued, more _ owes⟩
    starts := fun saw => (vigil.starts saw).imp_right fun ⟨packet, queued, owes⟩ =>
      ⟨packet, queued, more _ owes⟩ }

/-! ## Steps of the carrier -/

section Carrier

variable {owed : Change → Prop} {shared : Shared ι} {stage : Stage}

/-- A carrier that watches nothing relies on its registration only. -/
theorem Vigil.idle {shared : Shared ι} {stage : Stage}
    (gate : shared.control.signal.gate = stage.holdsGate)
    (waiters : shared.control.signal.waiters = if stage.registered then 1 else 0)
    (blocked : shared.control.signal.blocked = false)
    (unseen : ∀ observed, ¬ stage.SawEpoch false observed) : Vigil owed shared stage where
  gate := gate
  waiters := waiters
  blocked := by
    rw [blocked]
    nofun
  epoch := by
    rw [blocked]
    exact fun observed saw => (unseen observed saw).elim
  hub := by
    rw [blocked]
    intro saw
    obtain ⟨observed, saw⟩ := saw.epoch
    exact (unseen observed saw).elim
  starts := by
    rw [blocked]
    intro saw
    obtain ⟨observed, saw⟩ := saw.hub.epoch
    exact (unseen observed saw).elim

theorem Vigil.awake (vigil : Vigil owed shared stage)
    (elsewhere : ∀ episode, stage ≠ .idle episode .blocked) :
    shared.control.signal.blocked = false := by
  by_contra blocked
  obtain ⟨episode, same⟩ := vigil.blocked (Bool.eq_true_of_not_eq_false blocked)
  exact elsewhere episode same

/-- A carrier that still watches nothing. -/
theorem Vigil.still {stage' : Stage} (vigil : Vigil owed shared stage)
    (elsewhere : ∀ episode, stage ≠ .idle episode .blocked)
    (gate : stage'.holdsGate = stage.holdsGate)
    (registered : stage'.registered = stage.registered)
    (unseen : ∀ observed, ¬ stage'.SawEpoch false observed) : Vigil owed shared stage' := by
  apply Vigil.idle
  · rw [vigil.gate, gate]
  · rw [vigil.waiters, registered]
  · exact vigil.awake elsewhere
  · exact unseen

theorem idleStep_vigil {carriers : Nat} {choice : Choice} {control : Control}
    {episode : Idle} {place : IdleStage} {stage' : Stage}
    (vigil : Vigil owed shared (.idle episode place))
    (stepped : idleStep carriers choice shared.hub.queue shared.control episode place =
      some (control, stage')) : Vigil owed { shared with control } stage' := by
  cases place with
  | observeInbox | observeConsumer =>
      rw [idleStep] at stepped
      split at stepped
      · cases stepped
        exact vigil.still nofun rfl rfl nofun
      · cases stepped
        exact vigil.still nofun rfl rfl nofun
  | observeHead probes =>
      rw [idleStep] at stepped
      split at stepped
      · cases stepped
        exact vigil.still nofun rfl rfl nofun
      · cases stepped
        cases probes with
        | none =>
            rw [afterObservation]
            split
            · exact vigil.still nofun rfl rfl nofun
            · exact vigil.still nofun rfl rfl nofun
        | some left => exact vigil.still nofun rfl rfl nofun
  | probeEpoch left =>
      cases left with
      | zero =>
          rw [idleStep] at stepped
          split at stepped
          · cases stepped
            exact vigil.still nofun rfl rfl nofun
          · cases stepped
            exact vigil.still nofun rfl rfl nofun
      | succ left =>
          rw [idleStep] at stepped
          split at stepped
          · cases stepped
            exact vigil.still nofun rfl rfl nofun
          · cases stepped
            exact vigil.still nofun rfl rfl nofun
  | lockGate | unlockGate =>
      cases stepped
      exact .idle rfl vigil.waiters (vigil.awake nofun) nofun
  | register =>
      cases stepped
      refine .idle vigil.gate ?_ (vigil.awake nofun) nofun
      exact congrArg (· + 1) vigil.waiters
  | loadEpoch =>
      rw [idleStep] at stepped
      split at stepped
      · rename_i same
        cases stepped
        exact {
          gate := vigil.gate
          waiters := vigil.waiters
          blocked := fun blocked => by
            rw [vigil.awake nofun] at blocked
            cases blocked
          epoch := fun observed saw => .inl (same.trans saw)
          hub := nofun
          starts := nofun }
      · cases stepped
        exact vigil.still nofun rfl rfl nofun
  | checkStarts =>
      rw [idleStep] at stepped
      split at stepped
      · cases stepped
        exact vigil.still nofun rfl rfl nofun
      · rename_i none
        cases stepped
        exact {
          gate := vigil.gate
          waiters := vigil.waiters
          blocked := fun blocked => by
            rw [vigil.awake nofun] at blocked
            cases blocked
          epoch := vigil.epoch
          hub := vigil.hub
          starts := fun _ => .inl (by
            simpa [Inbox.hasQueuedStartsAtWaitBoundary] using none) }
  | sleep =>
      rw [idleStep] at stepped
      split at stepped
      · cases stepped
        exact vigil.still nofun rfl rfl nofun
      · cases stepped
        exact {
          gate := rfl
          waiters := vigil.waiters
          blocked := fun _ => ⟨episode, rfl⟩
          epoch := fun observed saw => vigil.epoch observed saw.2
          hub := fun _ => vigil.hub trivial
          starts := fun _ => vigil.starts trivial }
  | blocked =>
      rw [idleStep] at stepped
      split at stepped
      · cases stepped
      · cases stepped
        exact .idle rfl vigil.waiters rfl nofun
  | unregister =>
      cases stepped
      refine .idle vigil.gate ?_ (vigil.awake nofun) nofun
      exact congrArg (· - 1) vigil.waiters
  | armWait | disarmWait => cases stepped

theorem carrierStep_vigil {carriers : Nat} {choice : Choice} {control : Control}
    {stage' : Stage} (vigil : Vigil owed shared stage)
    (stepped : carrierStep carriers choice shared.hub.queue shared.control stage =
      some (control, stage')) : Vigil owed { shared with control } stage' := by
  cases stage with
  | rest =>
      cases stepped
      exact vigil.still nofun rfl rfl nofun
  | drive =>
      rw [carrierStep] at stepped
      split at stepped
      · cases stepped
        exact vigil.still nofun rfl rfl nofun
      · split at stepped
        · cases stepped
          exact vigil.still nofun rfl rfl nofun
        · cases stepped
          exact vigil.still nofun rfl rfl nofun
      · split at stepped
        · cases stepped
          exact vigil.still nofun rfl rfl nofun
        · cases stepped
          exact vigil.still nofun rfl rfl nofun
      · split at stepped
        · cases stepped
          exact vigil.still nofun rfl rfl nofun
        · cases stepped
          exact vigil.still nofun rfl rfl nofun
      · cases stepped
        exact vigil.still nofun rfl rfl nofun
      · cases stepped
        exact vigil.still nofun rfl rfl nofun
  | drain | popScope | takeAbort =>
      cases stepped
      exact .idle vigil.gate vigil.waiters (vigil.awake nofun) nofun
  | idle => exact idleStep_vigil vigil stepped
  | _ => cases stepped

/-- A carrier in the wake queue that still watches no more than the epoch. -/
theorem Vigil.withHub (vigil : Vigil owed shared stage) (hub : Wake.Shared ι)
    (unseen : ∀ blocked, ¬ stage.SawHub blocked) : Vigil owed { shared with hub } stage :=
  { vigil with
    hub := fun saw => (unseen _ saw).elim
    starts := fun saw => (unseen _ saw.hub).elim }

/-- A step of the carrier in the wake queue: once it is armed, the queue is empty. -/
theorem Vigil.hubStep {hub : Wake.Shared ι} {pc pc' : Wake.Pc} {call : Wake.Call}
    (vigil : Vigil owed shared stage) (called : stage.hubCall = some call)
    (inv : shared.hub.Inv) (inv' : hub.Inv)
    (advance : Advance .consumer shared.hub pc hub pc') :
    Vigil owed { shared with hub } (stage.afterHub pc') := by
  unfold Stage.afterHub
  split
  · have moved := vigil.withHub hub nofun
    exact moved.still nofun rfl rfl nofun
  · have moved := vigil.withHub hub nofun
    exact moved.still nofun rfl rfl nofun
  · have step := hub_seen inv inv' (.arm false) advance rfl
    generalize (⟨shared.hub.pending, shared.hub.queue.head.sleeping⟩ : Mailbox Notice) = before
      at step
    generalize after : (⟨hub.pending, hub.queue.head.sleeping⟩ : Mailbox Notice) = mailbox
      at step
    cases step
    exact {
      gate := vigil.gate
      waiters := vigil.waiters
      blocked := fun blocked => by
        rw [vigil.awake nofun] at blocked
        cases blocked
      epoch := vigil.epoch
      hub := fun _ => .inl ⟨congrArg Mailbox.pending after, congrArg Mailbox.armed after⟩
      starts := nofun }
  · have moved := vigil.withHub hub nofun
    exact moved.still nofun rfl rfl nofun
  · have moved := vigil.withHub hub nofun
    exact moved.still nofun rfl rfl nofun
  · have moved := vigil.withHub hub nofun
    exact moved.still nofun rfl rfl nofun
  · apply vigil.withHub
    intro blocked saw
    cases stage with
    | idle episode place => cases place <;> first | exact saw | cases called
    | _ => exact saw

end Carrier

/-! ## Every interleaving -/

section Run

variable [DecidableEq ι] {carriers : Nat} {state : Threads (Party ι) (Shared ι) Local}

abbrev sleepSystem (ι : Type) [DecidableEq ι] (carriers : Nat) :
    System (Threads (Party ι) (Shared ι) Local) :=
  (program ι carriers).system

/-- The wake queue as its parties see it. -/
def hubView (state : Threads (Party ι) (Shared ι) Local) :
    Threads (Party ι) (Wake.Shared ι) Wake.Pc :=
  ⟨state.shared.hub, fun party => (state.locals party).hub⟩

/-- A step either is one of the wake queue, or leaves it alone. -/
theorem nextStep_cases {party : Party ι} {choice : Choice} {shared shared' : Shared ι}
    {pc pc' : Local} (stepped : nextStep carriers party choice shared pc = some (shared', pc')) :
    (∃ call hub place, pc.stage.hubCall = some call ∧
      Advance party shared.hub pc.hub hub place ∧
      shared' = { shared with hub } ∧ pc' = ⟨place, pc.stage.afterHub place⟩) ∨
    ∃ control stage, controlStep carriers party choice shared pc.stage = some (control, stage) ∧
      shared' = { shared with control } ∧ pc' = ⟨pc.hub, stage⟩ := by
  rw [nextStep] at stepped
  split at stepped
  · rename_i call called
    obtain ⟨⟨hub, place⟩, taken, same⟩ := Option.map_eq_some_iff.1 stepped
    cases same
    exact .inl ⟨call, hub, place, called,
      (Wake.scheduler ι).sound party ⟨call, choice.spurious⟩ _ _ _ taken, rfl, rfl⟩
  · obtain ⟨⟨control, stage⟩, taken, same⟩ := Option.map_eq_some_iff.1 stepped
    cases same
    exact .inr ⟨control, stage, taken, rfl, rfl⟩

omit [DecidableEq ι] in
theorem nextStep_control {party : Party ι} {choice : Choice} {shared : Shared ι} (pc : Local)
    {control : Control} {stage : Stage} (outside : pc.stage.hubCall = none)
    (stepped : controlStep carriers party choice shared pc.stage = some (control, stage)) :
    nextStep carriers party choice shared pc =
      some ({ shared with control }, ⟨pc.hub, stage⟩) := by
  rw [nextStep, outside, stepped]
  rfl

/-- Every run is a run of the wake queue. -/
theorem reachable_hubView (reachable : (sleepSystem ι carriers).Reachable state) :
    (queueSystem ι).Reachable (hubView state) := by
  induction reachable with
  | initial isInitial =>
      obtain ⟨⟨-, hub⟩, started⟩ := isInitial
      exact .initial ⟨hub, fun party => congrArg Local.hub (started party)⟩
  | step _ taken ih =>
      cases taken with
      | mk party moved =>
          obtain ⟨choice, stepped⟩ := moved
          rcases nextStep_cases stepped with
            ⟨call, hub, place, called, advance, rfl, rfl⟩ | ⟨control, stage, taken, rfl, rfl⟩
          · have next := System.Reachable.step ih (.mk party advance)
            convert next using 1
            refine congrArg (Threads.mk hub) (funext fun other => ?_)
            exact apply_ite Local.hub ..
          · convert ih using 1
            refine congrArg (Threads.mk _) (funext fun other => ?_)
            by_cases same : other = party
            · simp [same]
            · simp [same]

/-- A change some publisher has made visible and still owes a notification for. -/
def Owed (state : Threads (Party ι) (Shared ι) Local) (change : Change) : Prop :=
  ∃ id, change ∈ (state.locals (.producer id)).stage.owed

/-- What holds in every reachable state. -/
structure Watched (state : Threads (Party ι) (Shared ι) Local) : Prop where
  vigil : Vigil (Owed state) state.shared (state.locals .consumer).stage
  publishers : ∀ id, (state.locals (.producer id)).stage.ofPublisher = true

/-- A step of the carrier leaves the publishers where they are. -/
theorem Watched.carrier {shared : Shared ι} {pc : Local} (watched : Watched state)
    (vigil : Vigil (Owed state) shared pc.stage) :
    Watched ⟨shared, fun other => if other = .consumer then pc else state.locals other⟩ where
  vigil := by
    apply vigil.mono
    · rintro change ⟨id, member⟩
      exact ⟨id, member⟩
  publishers := watched.publishers

theorem Watched.publisher {shared : Shared ι} {pc : Local} {id : ι} (watched : Watched state)
    (published : Published state.shared (state.locals (.producer id)).stage shared pc.stage)
    (ofPublisher : pc.stage.ofPublisher = true) :
    Watched ⟨shared, fun other => if other = .producer id then pc else state.locals other⟩ where
  vigil := by
    apply watched.vigil.published published
    · intro change member
      exact ⟨id, by simpa using member⟩
    · rintro kept change ⟨other, member⟩
      refine ⟨other, ?_⟩
      by_cases same : other = id
      · subst same
        simpa using kept change member
      · simpa [same] using member
  publishers := by
    intro other
    by_cases same : other = id
    · simpa [same] using ofPublisher
    · simpa [same] using watched.publishers other

theorem reachable_watched (reachable : (sleepSystem ι carriers).Reachable state) :
    Watched state := by
  induction reachable with
  | @initial state isInitial =>
      obtain ⟨⟨⟨capacity, control⟩, -⟩, started⟩ := isInitial
      refine ⟨?_, fun id => by rw [started]; rfl⟩
      rw [started]
      exact .idle (by rw [control]; rfl) (by rw [control]; rfl) (by rw [control]; rfl) nofun
  | @step state next previous taken ih =>
      have invAfter := (reachable_inv (reachable_hubView (.step previous taken))).1
      obtain ⟨inv, facts⟩ := reachable_inv (reachable_hubView previous)
      cases taken with
      | mk party moved =>
          obtain ⟨choice, stepped⟩ := moved
          rcases nextStep_cases stepped with
            ⟨call, hub, place, called, advance, rfl, rfl⟩ | ⟨control, stage, taken, rfl, rfl⟩
          · cases party with
            | consumer => exact ih.carrier (ih.vigil.hubStep called inv invAfter advance)
            | producer id =>
                obtain ⟨notice, same⟩ := Stage.enqueues called (ih.publishers id)
                apply ih.publisher
                · rw [same]
                  exact enqueue_published inv invAfter (facts (.producer id)) advance
                · rw [same]
                  exact enqueue_ofPublisher notice place
          · cases party with
            | consumer => exact ih.carrier (carrierStep_vigil ih.vigil taken)
            | producer id =>
                exact ih.publisher (publisherStep_published taken)
                  (publisherStep_ofPublisher taken)

/-- In every interleaving of the carrier and its publishers, a carrier that is blocked on the
condition variable, and not yet notified, misses nothing: a notice linked in the wake queue,
a start packet in the inbox and a new epoch each come from a publisher that has made the
change visible and has still to notify. -/
theorem carrier_sleep (reachable : (sleepSystem ι carriers).Reachable state) {episode : Idle}
    (waits : (state.locals .consumer).stage = .idle episode .blocked)
    (blocked : state.shared.control.signal.blocked = true) :
    (state.shared.hub.pending ≠ [] →
      ∃ notice ∈ state.shared.hub.pending, Owed state (.wake notice)) ∧
    (state.shared.control.inbox.state.starts ≠ [] →
      ∃ packet ∈ state.shared.control.inbox.state.starts, Owed state (.start packet)) ∧
    (state.shared.control.signal.epoch ≠ episode.observed → Owed state .epoch) := by
  obtain ⟨vigil, -⟩ := reachable_watched reachable
  rw [waits] at vigil
  refine ⟨fun linked => ?_, fun queued => ?_, fun changed => ?_⟩
  · rcases vigil.hub blocked with ⟨none, -⟩ | owed
    · exact (linked none).elim
    · exact owed
  · rcases vigil.starts blocked with none | owed
    · exact (queued none).elim
    · exact owed
  · rcases vigil.epoch episode.observed ⟨blocked, rfl⟩ with same | owed
    · exact (changed same).elim
    · exact owed

/-- What is owed gets through: an owing publisher's next step wakes the carrier or brings it
closer to the gate. -/
theorem owing_step (reachable : (sleepSystem ι carriers).Reachable state)
    (blocked : state.shared.control.signal.blocked = true) {id : ι} {change : Change}
    (owed : change ∈ (state.locals (.producer id)).stage.owed) (choice : Choice) :
    ∃ shared pc, nextStep carriers (.producer id) choice state.shared
        (state.locals (.producer id)) = some (shared, pc) ∧
      (shared.control.signal.blocked = false ∨
        shared.control.signal.blocked = true ∧ change ∈ pc.stage.owed ∧
          pc.stage.distance < (state.locals (.producer id)).stage.distance) := by
  obtain ⟨vigil, -⟩ := reachable_watched reachable
  obtain ⟨episode, waits⟩ := vigil.blocked blocked
  have free : state.shared.control.signal.gate = false := by
    rw [vigil.gate, waits]
    rfl
  have waiting : state.shared.control.signal.waiters ≠ 0 := by
    rw [vigil.waiters, waits]
    exact Nat.one_ne_zero
  have act : ∀ {place : Stage} {control : Control} {stage : Stage}, place.hubCall = none →
      (state.locals (.producer id)).stage = place →
      publisherStep choice state.shared.control place = some (control, stage) →
      nextStep carriers (.producer id) choice state.shared (state.locals (.producer id)) =
        some ({ state.shared with control }, ⟨(state.locals (.producer id)).hub, stage⟩) := by
    rintro place control stage outside rfl stepped
    exact nextStep_control _ outside stepped
  cases stage : (state.locals (.producer id)).stage with
  | addEpoch =>
      rw [stage] at owed
      have stepped := act rfl stage rfl
      exact ⟨_, _, stepped, .inr ⟨blocked, List.mem_cons_of_mem _ owed, Nat.lt_succ_self _⟩⟩
  | loadWaiters =>
      rw [stage] at owed
      have stepped := act rfl stage (if_pos waiting)
      exact ⟨_, _, stepped, .inr ⟨blocked, owed, Nat.lt_succ_self _⟩⟩
  | notifyGate =>
      have stepped := act rfl stage (if_neg (by rw [free]; nofun))
      exact ⟨_, _, stepped, .inl rfl⟩
  | _ =>
      rw [stage] at owed
      cases owed

/-! ## A run -/

def scheduler (ι : Type) [DecidableEq ι] (carriers : Nat) :
    (program ι carriers).Scheduler Choice where
  next party choice shared pc := nextStep carriers party choice shared pc
  sound _ choice _ _ _ taken := ⟨choice, taken⟩

/-- A fresh carrier with room for three tasks and three starts. -/
def fresh : Threads (Party Unit) (Shared Unit) Local :=
  ⟨⟨Wake.fresh.shared, ⟨.new, .new 3⟩⟩, fun _ => ⟨.rest none, .rest⟩⟩

def sampleChoice : Choice := ⟨.push ⟨5, 1⟩, .waitForWork false 0, false, false⟩

/-- The carrier goes to sleep, and a publisher has pushed a start it does not yet notify. -/
def asleepSchedule : List (Party Unit × Choice) :=
  List.replicate 14 (.consumer, sampleChoice) ++
    List.replicate 3 (.producer (), sampleChoice)

end Run

theorem carrier_sleep_owed :
    ∃ state, (scheduler Unit 1).run asleepSchedule fresh = some state ∧
      state.shared.control.inbox.state.starts = [⟨5, 1⟩] ∧ Owed state (.start ⟨5, 1⟩) ∧
      Owed state .epoch := by
  have runs : ((scheduler Unit 1).run asleepSchedule fresh).map (fun state =>
      ((state.locals .consumer).stage, state.shared.control)) =
        some (.idle ⟨0, false, 0⟩ .blocked,
          ⟨⟨1, 1, false, true⟩, ⟨3, ⟨[⟨5, 1⟩], false, []⟩, 1, false, false⟩⟩) := by decide
  obtain ⟨state, runs, view⟩ := Option.map_eq_some_iff.1 runs
  have start : (sleepSystem Unit 1).Reachable fresh :=
    .initial ⟨⟨⟨3, rfl⟩, 3, _, rfl, rfl⟩, fun _ => rfl⟩
  have reachable := (scheduler Unit 1).run_reachable start runs
  have waits := congrArg Prod.fst view
  have control : state.shared.control = _ := congrArg Prod.snd view
  obtain ⟨-, starts, epoch⟩ := carrier_sleep reachable waits (by rw [control])
  refine ⟨state, runs, by rw [control], ?_, epoch (by rw [control]; decide)⟩
  obtain ⟨packet, queued, owed⟩ := starts (by rw [control]; nofun)
  rw [control] at queued
  cases List.mem_singleton.1 queued
  exact owed

end VThread.Carrier
