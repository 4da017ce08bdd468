import VThread.Kernel.Controlling
import VThread.Kernel.Ticking

/-!
# Calls in any order

The kernel between its calls, whatever their order is.  The drive loop makes them in some
order.
-/

namespace VThread.Kernel

open VThread.Lib VThread.Carrier VThread.Ready VThread.Wait

/-- A call into the kernel, or what the others do between two calls. -/
inductive Call where
  | moves (others : Nat → List Move)
  | control (control : Control)
  | takeAbort
  | observeIdle
  | receive (granted : Nat → Bool)
  | receiveLocal
  | tick (others : Nat → List Move) (input : TickInput)
  | processWakes (others : Nat → List Move)
  | processDeferredWakes (others : Nat → List Move)
  | expireTimers (expired : List ParkToken)
  | abort (others : Nat → List Move) (scope : Option Nat) (reason : TaskFailure)
  | retryAborts (others : Nat → List Move)
  | sweepRevoked

namespace World

def call (world : World) : Call → Checked World
  | .moves others => pure (world.pause others)
  | .control control => pure (world.control control)
  | .takeAbort => pure { world with inbox := world.inbox.takeAbort }
  | .observeIdle => pure { world with
      remotePending := world.remotePending || world.inbox.pendingStarts != 0 }
  | .receive granted => world.receive granted
  | .receiveLocal => pure world.receiveLocal
  | .tick others input => do
      let (world, _) ← world.tick others input
      pure world
  | .processWakes others => world.processWakes others
  | .processDeferredWakes others => world.processDeferredWakes others
  | .expireTimers expired => pure (world.expireTimers expired)
  | .abort others scope reason => do
      let (world, _) ← world.abort others scope reason
      pure world
  | .retryAborts others => do
      let (world, _) ← world.retryAborts others
      pure world
  | .sweepRevoked => world.sweepRevoked

end World

/-- The runs of a kernel from its start, as long as no call fails. -/
def calls (config : Config) : Machine World Call where
  initial world := world = .new config
  next call world := (world.call call).toOption

/-- What holds between two calls. -/
structure Steady (world : World) : Prop where
  sound : Sound none world
  inFlight : world.inFlight = none
  unpacked : world.Unpacked

theorem steady_new (config : Config) : Steady (World.new config) :=
  ⟨⟨valid_new config, bounded_new config, pending_nil _, scoped_new config⟩, rfl, rfl, rfl⟩

namespace Steady

variable {world : World}

theorem woken {world' : World} (steady : Steady world) (sound : Sound none world')
    (woken : Woken world world') : Steady world' := by
  refine ⟨sound, woken.inFlight.trans steady.inFlight, ?_⟩
  obtain ⟨_, _, _, _, _, _, _, _, _, rfl⟩ := woken
  exact steady.unpacked

theorem control (steady : Steady world) (control : Control) : Steady (world.control control) := by
  refine ⟨World.control_sound steady.sound control, ?_, ?_⟩
  all_goals
    obtain ⟨_, _, _, _, _, _, same⟩ := world.control_same control
    rw [same]
  · exact steady.inFlight
  · exact steady.unpacked

theorem takeAbort (steady : Steady world) :
    Steady { world with inbox := world.inbox.takeAbort } := by
  have valid := steady.sound.valid
  have admitted := steady.sound.admitted
  exact ⟨⟨⟨valid.located, valid.framed, valid.waiting, valid.deferring, valid.noticed⟩,
    ⟨steady.sound.bounded.records, steady.sound.bounded.owned, steady.sound.bounded.borrowed⟩,
    steady.sound.pending, ⟨admitted.distinct, admitted.bounded, admitted.fresh, admitted.live,
      admitted.queued, admitted.issued⟩⟩, steady.inFlight, steady.unpacked⟩

theorem observeIdle (steady : Steady world) (remotePending : Bool) :
    Steady { world with remotePending } :=
  ⟨(World.counted_sound steady.sound remotePending world.admissionPressure).1, steady.inFlight,
    steady.unpacked⟩

/-- A call succeeds, unless a task leaves frames with a claim in flight. -/
theorem call (steady : Steady world) (call : Call) : Goes (world.call call) Steady := by
  have sound := steady.sound
  cases call with
  | moves others =>
      obtain ⟨sound', woken⟩ := sound.pause others
      exact .pure (steady.woken sound' woken)
  | control control => exact .pure (steady.control control)
  | takeAbort => exact .pure steady.takeAbort
  | observeIdle => exact .pure (steady.observeIdle _)
  | receive granted =>
      obtain ⟨world', ran, sound', unpacked, received, -⟩ :=
        World.receive_spec sound steady.unpacked granted
      exact .of_ok ran ⟨sound', received.inFlight.trans steady.inFlight, unpacked⟩
  | receiveLocal =>
      obtain ⟨sound', received, -, unpacked⟩ := World.receiveLocal_spec sound
      exact .pure ⟨sound', received.inFlight.trans steady.inFlight, unpacked steady.unpacked⟩
  | tick others input =>
      refine (World.tick_spec sound steady.inFlight others input).bind fun result ticked => ?_
      exact .pure ⟨ticked.sound, ticked.inFlight, ticked.unpacked steady.unpacked⟩
  | processWakes others =>
      obtain ⟨world', ran, sound', woken⟩ := World.processWakes_spec others sound
      exact .of_ok ran (steady.woken sound' woken)
  | processDeferredWakes others =>
      obtain ⟨world', ran, sound', woken⟩ := World.processDeferredWakes_spec others sound
      exact .of_ok ran (steady.woken sound' woken)
  | expireTimers expired =>
      obtain ⟨sound', woken⟩ := World.expireTimers_spec expired sound
      exact .pure (steady.woken sound' woken)
  | abort others scope reason =>
      obtain ⟨world', retired, ran, aborted⟩ := World.abort_spec sound others scope reason
      have calls : world.call (.abort others scope reason) = .ok world' := by
        rw [World.call, ran]
        rfl
      exact .of_ok calls ⟨aborted.sound, aborted.inFlight steady.inFlight,
        aborted.unpacked steady.unpacked⟩
  | retryAborts others =>
      obtain ⟨world', ran, sound', idle, unpacked, -⟩ :=
        World.retryAborts_spec sound steady.inFlight others
      have calls : world.call (.retryAborts others) = .ok world' := by
        rw [World.call, ran]
        rfl
      exact .of_ok calls ⟨sound', idle, unpacked steady.unpacked⟩
  | sweepRevoked =>
      obtain ⟨world', ran, revoked⟩ := World.sweepRevoked_spec sound steady.inFlight
      exact .of_ok ran ⟨revoked.sound, revoked.inFlight, revoked.unpacked steady.unpacked⟩

end Steady

theorem next_iff {world world' : World} {config : Config} {call : Call} :
    (calls config).next call world = some world' ↔ world.call call = .ok world' := by
  change (world.call call).toOption = _ ↔ _
  cases world.call call with
  | error | ok => simp [Except.toOption]

/-- A list of calls gives a run. -/
theorem calls_run {config : Config} {list : List Call} {world : World}
    (ran : (calls config).run (fun _ _ => true) list (.new config) = some world) :
    (calls config).system.Reachable world := by
  have start : ((calls config).guarded fun call world =>
      (fun _ _ => true : Call → World → Bool) call world = true).Reachable (.new config) :=
    .initial rfl
  exact Machine.guarded_reachable (Machine.run_reachable start ran)

/-- A carrier for two tasks. -/
def pairConfig : Config := ⟨2, 1, 2, Nat.one_pos⟩

/-- A carrier for four tasks in two scopes. -/
def crowdConfig : Config := ⟨4, 2, 4, Nat.two_pos⟩

/-- Between any calls, the kernel is steady. -/
theorem steady_of_calls {config : Config} {world : World}
    (reachable : (calls config).system.Reachable world) : Steady world := by
  refine reachable.induct (fun _ same => same ▸ steady_new config) ?_
  rintro world world' - steady ⟨call, taken⟩
  exact (steady.call call).of_eq (next_iff.mp taken)

/-! ## The drive loop -/

/-- Calls one after the other. -/
theorem calls_step {config : Config} {world world' : World} (call : Call)
    (reachable : (calls config).system.Reachable world) (ran : world.call call = .ok world') :
    (calls config).system.Reachable world' := .step reachable ⟨call, next_iff.mpr ran⟩

theorem Drive.call_some {α : Type} {result : Checked α} {next : α → Drive} {drive : Drive}
    (taken : Drive.call result next = some drive) : ∃ value, result = .ok value ∧
      next value = drive := by
  cases result with
  | error => cases taken
  | ok value => exact ⟨value, rfl, Option.some.inj taken⟩

/-- Every step of the drive loop. -/
inductive Drive.Takes : Choice → Drive → Drive → Prop where
  | moves (others : Nat → List Move) (world : World) (pc : Pc) :
      Takes (.moves others) ⟨world, pc⟩ ⟨world.pause others, pc⟩
  | control (control : Control) (world : World) (pc : Pc) :
      Takes (.control control) ⟨world, pc⟩ ⟨world.control control, pc⟩
  | signal {world : World} : world.inbox.stopped = false →
      Takes .signal ⟨world, .top⟩ ⟨world, .draining⟩
  | takeAbort {others : Nat → List Move} {world world' : World} {scope : Nat}
      {reason : TaskFailure} {rest : List (Nat × TaskFailure)} {retired : Bool} :
      world.inbox.state.abort = (scope, reason) :: rest →
      { world with inbox := world.inbox.takeAbort }.abort others (some scope) reason =
        .ok (world', retired) →
      Takes (.takeAbort others) ⟨world, .draining⟩ ⟨world', .draining⟩
  | receiveAll {granted : Nat → Bool} {world world' : World} : world.inbox.state.abort = [] →
      world.receive granted = .ok world' →
      Takes (.receive granted) ⟨world, .draining⟩ ⟨world', .ticking true⟩
  | receive {granted : Nat → Bool} {world world' : World} : world.receive granted = .ok world' →
      Takes (.receive granted) ⟨world, .top⟩ ⟨world', .ticking false⟩
  | receiveLocal (world : World) :
      Takes .receiveLocal ⟨world, .top⟩ ⟨world.receiveLocal, .ticking false⟩
  | abortAll {others : Nat → List Move} {world world' : World} {retired : Bool} :
      world.inbox.stopped = true →
      world.abort others none .runtimeStopped = .ok (world', retired) →
      Takes (.abortAll others) ⟨world, .top⟩
        ⟨world', if retired then .stopped else .ticking true⟩
  | tick {others : Nat → List Move} {expired : List ParkToken} {turn : Turn}
      {signalChanged : Bool} {world world' : World} {progress : Progress} :
      world.tick others ⟨signalChanged, expired, turn⟩ = .ok (world', progress) →
      Takes (.tick others expired turn) ⟨world, .ticking signalChanged⟩ ⟨world', .top⟩
  | observeIdle (world : World) : Takes .observeIdle ⟨world, .top⟩
      ⟨{ world with
        remotePending := world.remotePending || world.inbox.pendingStarts != 0 }, .top⟩

theorem Drive.next_takes {choice : Choice} {drive drive' : Drive}
    (taken : Drive.next choice drive = some drive') : Drive.Takes choice drive drive' := by
  obtain ⟨world, pc⟩ := drive
  cases choice with
  | moves others =>
      cases taken
      exact .moves others world pc
  | control control =>
      cases taken
      exact .control control world pc
  | signal =>
      cases pc <;> try cases taken
      rw [Drive.next] at taken
      split at taken
      · cases taken
      · rename_i running
        cases taken
        exact .signal (by simpa using running)
  | takeAbort others =>
      cases pc <;> try cases taken
      rw [Drive.next] at taken
      split at taken
      · cases taken
      · rename_i scope reason rest requested
        obtain ⟨⟨world', retired⟩, ran, rfl⟩ := Drive.call_some taken
        exact .takeAbort requested ran
  | receive =>
      cases pc <;> try cases taken
      · obtain ⟨world', ran, rfl⟩ := Drive.call_some taken
        exact .receive ran
      · rw [Drive.next] at taken
        split at taken
        · rename_i quiet
          obtain ⟨world', ran, rfl⟩ := Drive.call_some taken
          exact .receiveAll quiet ran
        · cases taken
  | receiveLocal =>
      cases pc <;> cases taken
      exact .receiveLocal world
  | abortAll others =>
      cases pc <;> try cases taken
      rw [Drive.next] at taken
      split at taken
      · rename_i stopped
        obtain ⟨⟨world', retired⟩, ran, rfl⟩ := Drive.call_some taken
        exact .abortAll stopped ran
      · cases taken
  | tick =>
      cases pc <;> try cases taken
      obtain ⟨⟨world', progress⟩, ran, rfl⟩ := Drive.call_some taken
      exact .tick ran
  | observeIdle =>
      cases pc <;> cases taken
      exact .observeIdle world

/-- The drive loop makes calls, and nothing else. -/
theorem calls_of_takes {config : Config} {choice : Choice} {drive drive' : Drive}
    (taken : Drive.Takes choice drive drive')
    (before : (calls config).system.Reachable drive.world) :
    (calls config).system.Reachable drive'.world := by
  cases taken with
  | moves others => exact calls_step (.moves others) before rfl
  | control control => exact calls_step (.control control) before rfl
  | signal _ => exact before
  | takeAbort requested ran =>
      rename_i others world world' scope reason rest retired
      refine calls_step (.abort others (some scope) reason) (calls_step .takeAbort before rfl) ?_
      rw [World.call, ran]
      rfl
  | receiveAll quiet ran => exact calls_step (.receive _) before ran
  | receive ran => exact calls_step (.receive _) before ran
  | receiveLocal world => exact calls_step .receiveLocal before rfl
  | abortAll stopped ran =>
      rename_i others world world' retired
      refine calls_step (.abort others none .runtimeStopped) before ?_
      rw [World.call, ran]
      rfl
  | tick ran =>
      rename_i others expired turn signalChanged world world' progress
      refine calls_step (.tick others ⟨signalChanged, expired, turn⟩) before ?_
      rw [World.call, ran]
      rfl
  | observeIdle world => exact calls_step .observeIdle before rfl

theorem calls_of_drive {config : Config} {drive : Drive} (reachable : Reachable config drive) :
    (calls config).system.Reachable drive.world := by
  refine @System.Reachable.induct _ _ (fun drive : Drive =>
    (calls config).system.Reachable drive.world) ?_ ?_ drive reachable
  · rintro _ rfl
    exact .initial rfl
  · rintro drive drive' - before ⟨choice, taken⟩
    exact calls_of_takes (Drive.next_takes taken) before

theorem steady_of_drive {config : Config} {drive : Drive} (reachable : Reachable config drive) :
    Steady drive.world := steady_of_calls (calls_of_drive reachable)

end VThread.Kernel
