import VThread.Kernel.Starting

/-!
# Deferral of an abort

Before any task of a scope is discarded, the generations its tasks are parked on are retired.
One that is claimed but not yet published cannot be retired, and the abort is deferred.
-/

namespace VThread.Kernel

open VThread.Lib VThread.Carrier VThread.Ready VThread.Wait

/-! ## A generation while the others move -/

/-- A generation after a move of the others. -/
def Generation.advance (wait : Generation) : Move → Generation
  | .claim token cause =>
      match wait.phase with
      | .active => if wait.token = token then { wait with phase := .claimed cause } else wait
      | _ => wait
  | .link token _ =>
      match wait.phase with
      | .claimed cause => if wait.token = token then { wait with phase := .linked cause } else wait
      | _ => wait
  | .publish token =>
      match wait.phase with
      | .linked cause => if wait.token = token then { wait with phase := .selected cause } else wait
      | _ => wait
  | .forget => wait
  | .occupy => wait

/-- A generation after so many rounds of moves of the others. -/
def Generation.after (others : Nat → List Move) : Nat → Nat → Generation → Generation
  | _, 0, wait => wait
  | clock, rounds + 1, wait =>
      after others (clock + 1) rounds ((others clock).foldl advance wait)

/-- No claim is open on a generation of the scope. -/
def Settled (scope : Option Nat) (waits : List Generation) : Prop :=
  ∀ wait ∈ waits, inScope scope wait.task.scope = true → wait.phase.inFlight = false

namespace World

variable {running : Option TaskKey} {world : World} {token : ParkToken}

theorem setPhase_generation (world : World) (moved : ParkToken) (phase : WaitPhase)
    (token : ParkToken) : (world.setPhase moved phase).generation token =
      (world.generation token).map fun wait =>
        if wait.token = moved then { wait with phase } else wait := by
  rw [generation, setPhase, List.find?_map]
  congr 1
  refine congrArg (List.find? · world.waits) (funext fun wait => ?_)
  rw [Function.comp_apply]
  split <;> rfl

/-- Only the generation of the token that is moved can change. -/
theorem generation_advance {world : World} {move : Move} {moved : ParkToken} (phase : WaitPhase)
    {before : Generation} (found : world.generation moved = some before)
    (self : before.advance move = { before with phase })
    (other : ∀ wait : Generation, wait.token ≠ moved → wait.advance move = wait)
    (token : ParkToken) : (world.setPhase moved phase).generation token =
      (world.generation token).map (·.advance move) := by
  rw [setPhase_generation]
  refine Option.map_congr fun wait member => ?_
  by_cases same : wait.token = moved
  · have isToken := (generation_eq_some member).2
    rw [← isToken, same, found] at member
    cases member
    rw [if_pos same, self]
  · rw [if_neg same, other wait same]

/-- A move for a phase that the generation does not have changes nothing. -/
theorem generation_unmoved {world : World} {move : Move} {moved : ParkToken}
    (self : ∀ wait, world.generation moved = some wait → wait.advance move = wait)
    (other : ∀ wait : Generation, wait.token ≠ moved → wait.advance move = wait)
    (token : ParkToken) : world.generation token =
      (world.generation token).map (·.advance move) := by
  cases found : world.generation token with
  | none => rfl
  | some wait =>
      by_cases same : wait.token = moved
      · have isToken := (generation_eq_some found).2
        rw [Option.map_some, self wait (by rw [← same, isToken, found])]
      · rw [Option.map_some, other wait same]

theorem move_generation (world : World) (move : Move) (token : ParkToken) :
    (world.move move).generation token = (world.generation token).map (·.advance move) := by
  cases move with
  | claim moved cause =>
      have other : ∀ wait : Generation, wait.token ≠ moved →
          wait.advance (.claim moved cause) = wait := by
        intro wait different
        simp only [Generation.advance, if_neg different]
        split <;> rfl
      rw [World.move]
      split
      · rename_i found
        have isToken := (generation_eq_some found).2
        exact generation_advance _ found (by simpa [Generation.advance] using isToken) other token
      · rename_i inactive
        refine generation_unmoved (fun wait found => ?_) other token
        obtain ⟨isToken, task, route, phase⟩ := wait
        cases phase with
        | active => exact absurd found (inactive _ _ _)
        | _ => rfl
  | link moved carrier =>
      have other : ∀ wait : Generation, wait.token ≠ moved →
          wait.advance (.link moved carrier) = wait := by
        intro wait different
        simp only [Generation.advance, if_neg different]
        split <;> rfl
      rw [World.move]
      split
      · rename_i cause found
        have isToken := (generation_eq_some found).2
        have linked := generation_advance (.linked cause) found
          (by simpa [Generation.advance] using isToken) other token
        cases carrier <;> exact linked
      · rename_i unclaimed
        refine generation_unmoved (fun wait found => ?_) other token
        obtain ⟨isToken, task, route, phase⟩ := wait
        cases phase with
        | claimed cause => exact absurd found (unclaimed _ _ _ _)
        | _ => rfl
  | publish moved =>
      have other : ∀ wait : Generation, wait.token ≠ moved →
          wait.advance (.publish moved) = wait := by
        intro wait different
        simp only [Generation.advance, if_neg different]
        split <;> rfl
      rw [World.move]
      split
      · rename_i cause found
        have isToken := (generation_eq_some found).2
        exact generation_advance _ found (by simpa [Generation.advance] using isToken) other token
      · rename_i unlinked
        refine generation_unmoved (fun wait found => ?_) other token
        obtain ⟨isToken, task, route, phase⟩ := wait
        cases phase with
        | linked cause => exact absurd found (unlinked _ _ _ _)
        | _ => rfl
  | forget => exact Option.map_id'.symm
  | occupy =>
      rw [World.move]
      split
      · exact Option.map_id'.symm
      · exact Option.map_id'.symm

theorem moves_generation (world : World) (moves : List Move) (token : ParkToken) :
    (moves.foldl move world).generation token =
      (world.generation token).map (moves.foldl Generation.advance) := by
  induction moves generalizing world with
  | nil => simp
  | cons next moves ih =>
      rw [List.foldl_cons, ih, move_generation, Option.map_map]
      rfl

theorem pause_generation (world : World) (others : Nat → List Move) (token : ParkToken) :
    (world.pause others).generation token =
      (world.generation token).map ((others world.clock).foldl Generation.advance) :=
  moves_generation world (others world.clock) token

theorem pause_clock (world : World) (others : Nat → List Move) :
    (world.pause others).clock = world.clock + 1 := rfl

/-- The generation is claimed but not published when the others have moved so many times. -/
def unpublished (others : Nat → List Move) (rounds : Nat) (token : ParkToken) (world : World) :
    Bool :=
  (world.generation token).any fun wait =>
    (wait.after others world.clock rounds).phase.inFlight

theorem unpublished_pause (world : World) (others : Nat → List Move) (rounds : Nat)
    (token : ParkToken) : (world.pause others).unpublished others rounds token =
      world.unpublished others (rounds + 1) token := by
  rw [unpublished, unpublished, pause_generation, pause_clock, Option.any_map]
  rfl

/-! ## The attempts -/

/-- One attempt to retire the generation a task is parked on. -/
theorem tryAbandon_spec (valid : Valid none world) {parked : ParkedTask}
    (member : parked ∈ world.parked) :
    ∃ waits hub complete,
      world.tryAbandon parked.token = ({ world with waits, hub }, complete) ∧
      Valid none { world with waits, hub } ∧ waits.Sublist world.waits ∧
      complete = !(world.generation parked.token).any (·.phase.inFlight) ∧
      (complete = true → ∀ wait ∈ waits, wait.token ≠ parked.token) ∧
      ∀ token ≠ parked.token, { world with waits, hub }.generation token =
        world.generation token := by
  cases isOpen : (world.generation parked.token).any (·.phase.inFlight) with
  | true =>
      refine ⟨world.waits, world.hub, false, ?_, valid, .refl _, rfl, by simp, fun _ _ => rfl⟩
      cases found : world.generation parked.token with
      | none =>
          rw [found] at isOpen
          cases isOpen
      | some wait =>
          have inFlight : wait.phase.inFlight = true := by simpa [found] using isOpen
          simp only [tryAbandon, found, if_pos inFlight]
  | false =>
      have noClaim : ∀ wait, world.generation parked.token = some wait →
          wait.phase.inFlight = false := by
        intro wait found
        simpa [found] using isOpen
      obtain ⟨hub, abandoned, hubs⟩ := tryAbandon_eq noClaim
      refine ⟨_, hub, true, abandoned, ?_, List.filter_sublist, rfl,
        fun _ wait kept => by simpa using (List.mem_filter.mp kept).2, fun token other => ?_⟩
      · refine ⟨valid.located, valid.framed, valid.waiting.sublist List.filter_sublist,
          valid.deferring, { valid.noticed with hub := ?_, wakes := ?_ }⟩
        · intro notice left
          obtain ⟨known, apart⟩ := hubs notice left
          exact (valid.noticed.hub notice known).subset fun wait isWait same =>
            List.mem_filter.mpr ⟨isWait, by simpa using apart wait isWait same⟩
        · intro notice left
          rcases valid.noticed.wakes notice left with ⟨wait, isWait, token, route, task⟩ | holds
          · by_cases gone : wait.token = parked.token
            · refine .inr ⟨⟨wait.task, route ▸ valid.waiting.owner wait isWait, task⟩, parked,
                member, ?_, gone.symm.trans token⟩
              exact ((valid.waiting.own parked member wait isWait).mpr gone).symm.trans route
            · exact .inl ⟨wait, List.mem_filter.mpr ⟨isWait, by simpa using gone⟩, token, route,
                task⟩
          · exact .inr holds
      · rw [generation, generation, List.find?_filter]
        congr 1
        funext wait
        by_cases same : wait.token = token
        · simp [same, other]
        · simp [same]

/-- All attempts for the tasks parked in a scope.  The one with an index is made when the others
have moved once more than that. -/
structure Prepared (others : Nat → List Move) (scope : Option Nat) (todo : List ParkedTask)
    (world world' : World) (retired : Bool) : Prop where
  stirred : Stirred world world'
  valid : Valid none world'
  bounded : Bounded world'
  complete : retired = true ↔ ∀ index parked,
    (todo.filter fun parked => world.keyIn scope parked.task)[index]? = some parked →
      world.unpublished others (index + 1) parked.token = false
  gone : retired = true → ∀ parked ∈ todo, world.keyIn scope parked.task = true →
    ∀ wait ∈ world'.waits, wait.token ≠ parked.token
  kept : retired = false → ∃ parked ∈ todo, world.keyIn scope parked.task = true ∧
    ∃ wait ∈ world.waits, wait.token = parked.token

theorem keyIn_eq {scope : Option Nat} {key : TaskKey} {task : Task}
    (there : world.tasks.get key = some task) :
    world.keyIn scope key = inScope scope task.scope := by
  rw [keyIn, scopeOf, there]
  rfl

/-- Parked tasks do not share a generation. -/
theorem generation_apart (valid : Valid none world) {parked other : ParkedTask}
    (member : parked ∈ world.parked) (known : other ∈ world.parked)
    (apart : other.task ≠ parked.task) {wait : Generation}
    (found : world.generation other.token = some wait) : other.token ≠ parked.token := by
  intro same
  obtain ⟨isWait, token⟩ := generation_eq_some found
  have first := (valid.waiting.own other known wait isWait).mpr token
  have second := (valid.waiting.own parked member wait isWait).mpr (token.trans same)
  exact apart (first.symm.trans second)

theorem prepareEach_spec (others : Nat → List Move) (scope : Option Nat) {todo : List ParkedTask}
    (valid : Valid none world) (bounded : Bounded world) (inside : todo ⊆ world.parked)
    (distinct : (todo.map (·.task)).Nodup) :
    ∃ world' retired, world.prepareEach others scope todo = .ok (world', retired) ∧
      Prepared others scope todo world world' retired := by
  induction todo generalizing world with
  | nil => exact ⟨world, true, rfl, .refl _, valid, bounded, by simp, by simp, by simp⟩
  | cons parked rest ih =>
      have member := inside List.mem_cons_self
      have inside' : rest ⊆ world.parked := fun other kept => inside (List.mem_cons_of_mem _ kept)
      obtain ⟨absent, distinct'⟩ := List.nodup_cons.mp distinct
      obtain ⟨task, there⟩ : ∃ task, world.tasks.get parked.task = some task :=
        valid.located.get (by simp [keys, List.mem_map_of_mem member])
      rw [prepareEach, there, expect_some, ok_bind]
      cases isIn : inScope scope task.scope with
      | false =>
          have outside : world.keyIn scope parked.task = false := by rw [keyIn_eq there, isIn]
          obtain ⟨world', retired, ran, prepared⟩ := ih valid bounded inside' distinct'
          refine ⟨world', retired, ?_, prepared.stirred, prepared.valid, prepared.bounded, ?_,
            fun all other kept => ?_, fun deferred => ?_⟩
          · rw [if_neg (by simp), ran]
          · rw [List.filter_cons_of_neg (by simp [outside])]
            exact prepared.complete
          · rcases List.mem_cons.mp kept with rfl | kept
            · exact fun inside => absurd inside (by simp [outside])
            · exact prepared.gone all other kept
          · obtain ⟨other, kept, found⟩ := prepared.kept deferred
            exact ⟨other, List.mem_cons_of_mem _ kept, found⟩
      | true =>
          have isKey : world.keyIn scope parked.task = true := by rw [keyIn_eq there, isIn]
          have stirred := valid.pause_stirred others
          have member' : parked ∈ (world.pause others).parked := stirred.parked ▸ member
          obtain ⟨waits, hub, complete, attempt, valid', fewer, isComplete, gone, kept⟩ :=
            tryAbandon_spec (valid.pause others) member'
          let after : World := { world.pause others with waits, hub }
          have retires : Stirred (world.pause others) after :=
            ⟨_, _, _, _, _, rfl, fun wait left => ⟨wait, fewer.subset left, .refl wait⟩⟩
          have bounded' := bounded.pause others
          obtain ⟨world', retired, ran, prepared⟩ := @ih after valid'
            ⟨bounded'.records, bounded'.owned, bounded'.borrowed⟩ (stirred.parked ▸ inside')
            distinct'
          have sameKeys : ∀ key, after.keyIn scope key = world.keyIn scope key := by
            intro key
            rw [keyIn, keyIn, scopeOf, scopeOf, retires.tasks, stirred.tasks]
          have sameClaims : ∀ other ∈ rest, ∀ rounds,
              after.unpublished others rounds other.token =
                world.unpublished others (rounds + 1) other.token := by
            intro other isRest rounds
            rw [← unpublished_pause, unpublished, unpublished]
            have known : other ∈ (world.pause others).parked := stirred.parked ▸ inside' isRest
            have apart : other.task ≠ parked.task := fun same =>
              absent (List.mem_map.mpr ⟨other, isRest, same⟩)
            cases found : (world.pause others).generation other.token with
            | some wait =>
                have different := generation_apart (valid.pause others) member' known apart found
                rw [kept other.token different, found]
            | none =>
                have none' : after.generation other.token = none :=
                  generation_eq_none.mpr fun wait left =>
                    generation_eq_none.mp found wait (fewer.subset left)
                rw [none']
          have first : complete = !world.unpublished others 1 parked.token := by
            rw [isComplete, unpublished, pause_generation, Option.any_map]
            rfl
          refine ⟨world', complete && retired, ?_, (stirred.trans retires).trans prepared.stirred,
            prepared.valid, prepared.bounded, ?_, fun all other known => ?_, fun deferred => ?_⟩
          · rw [if_pos rfl, attempt]
            dsimp only
            rw [ran]
            rfl
          · have split : (parked :: rest).filter (fun parked => world.keyIn scope parked.task) =
                parked :: rest.filter fun parked => world.keyIn scope parked.task := by
              simp [isKey]
            rw [Bool.and_eq_true, prepared.complete, first, split]
            simp only [sameKeys, Bool.not_eq_true']
            constructor
            · rintro ⟨now, later⟩ index other found
              cases index with
              | zero =>
                  cases found
                  exact now
              | succ index =>
                  have isRest := List.mem_of_mem_filter (List.mem_of_getElem? found)
                  rw [← sameClaims other isRest]
                  exact later index other found
            · intro all
              refine ⟨all 0 parked rfl, fun index other found => ?_⟩
              have isRest := List.mem_of_mem_filter (List.mem_of_getElem? found)
              rw [sameClaims other isRest]
              exact all (index + 1) other found
          · intro isIn wait' left
            rw [Bool.and_eq_true] at all
            rcases List.mem_cons.mp known with rfl | known
            · obtain ⟨wait, left', onward⟩ := prepared.stirred.before left
              rw [onward.token]
              exact gone all.1 wait left'
            · exact prepared.gone all.2 other known (sameKeys other.task ▸ isIn) wait' left
          · rw [Bool.and_eq_false_iff] at deferred
            rcases deferred with open' | deferred
            · refine ⟨parked, List.mem_cons_self, isKey, ?_⟩
              rw [first, Bool.not_eq_false', unpublished] at open'
              cases found : world.generation parked.token with
              | none =>
                  rw [found] at open'
                  cases open'
              | some wait => exact ⟨wait, generation_eq_some found⟩
            · obtain ⟨other, isRest, isIn, wait', left, token⟩ := prepared.kept deferred
              obtain ⟨wait, isWait, onward⟩ := (stirred.trans retires).before left
              exact ⟨other, List.mem_cons_of_mem _ isRest, sameKeys other.task ▸ isIn, wait, isWait,
                onward.token.symm.trans token⟩

/-- A task parked in the scope has an unpublished claim when its turn comes. -/
def Meets (others : Nat → List Move) (scope : Option Nat) (world : World) : Prop :=
  ∃ index parked,
    (world.parked.filter fun parked => world.keyIn scope parked.task)[index]? = some parked ∧
      world.unpublished others (index + 1) parked.token = true

/-- What `prepare_abort` leaves. -/
structure Preparation (others : Nat → List Move) (scope : Option Nat) (world world' : World)
    (retired : Bool) : Prop where
  stirred : Stirred world world'
  valid : Valid none world'
  bounded : Bounded world'
  complete : retired = false ↔ Meets others scope world
  settled : retired = true → Settled scope world'.waits
  rooted : retired = false → ∃ index root, world.tasks.get (.owned index) = some root ∧
    inScope scope root.scope = true

/-- An owned task stands behind every unretired generation. -/
theorem wait_rooted (valid : Valid running world) {wait : Generation}
    (member : wait ∈ world.waits) :
    ∃ index root, world.tasks.get (.owned index) = some root ∧ root.scope = wait.task.scope := by
  have there := valid.waiting.owner wait member
  cases isRoute : wait.route with
  | owned index => exact ⟨index, wait.task, isRoute ▸ there, rfl⟩
  | borrowed index =>
      have unrevoked := valid.waiting.alive wait member (by rw [isRoute]; rfl)
      obtain ⟨owned, root, isRoot, uses⟩ :=
        valid.framed.liveRooted index wait.task (isRoute ▸ there) unrevoked
      exact ⟨owned, root, isRoot,
        (valid.framed.live wait.route wait.task there).scope root.frames uses⟩

theorem prepareAbort_spec (others : Nat → List Move) (scope : Option Nat)
    (valid : Valid none world) (bounded : Bounded world) :
    ∃ world' retired, world.prepareAbort others scope = .ok (world', retired) ∧
      Preparation others scope world world' retired := by
  have distinct : (world.parked.map (·.task)).Nodup :=
    ((valid.located.nodup.of_append_right).of_append_right).of_append_right
  obtain ⟨world', retired, ran, prepared⟩ :=
    prepareEach_spec others scope valid bounded (fun _ => id) distinct
  refine ⟨world', retired, ran, prepared.stirred, prepared.valid, prepared.bounded, ?_,
    fun all wait left isIn => ?_, fun deferred => ?_⟩
  · rw [← Bool.not_eq_true, prepared.complete, Meets]
    push Not
    simp only [ne_eq, Bool.not_eq_false]
  · -- A generation with an open claim belongs to a parked task.
    have there := prepared.valid.waiting.owner wait left
    rcases prepared.valid.waiting.woken wait left with runs | ⟨parked, isParked, same⟩ |
      ⟨cause, selected⟩
    · cases runs
    · have before : parked ∈ world.parked := prepared.stirred.parked ▸ isParked
      have isKey : world.keyIn scope parked.task = true := by
        rw [same, keyIn_eq (prepared.stirred.tasks ▸ there), isIn]
      have token := (prepared.valid.waiting.own parked isParked wait left).mp same.symm
      exact absurd token (prepared.gone all parked before isKey wait left)
    · rw [selected]
      rfl
  · obtain ⟨parked, member, isKey, wait, isWait, token⟩ := prepared.kept deferred
    have route := (valid.waiting.own parked member wait isWait).mpr token
    obtain ⟨index, root, there, same⟩ := wait_rooted valid isWait
    refine ⟨index, root, there, ?_⟩
    rw [same, ← keyIn_eq (valid.waiting.owner wait isWait), route, isKey]

/-! ## The pending aborts -/

theorem replaceReason_scopes (scope : Option Nat) (reason : TaskFailure)
    (pendingAborts : List (Option Nat × TaskFailure)) :
    (replaceReason scope reason pendingAborts).map (·.1) = pendingAborts.map (·.1) := by
  induction pendingAborts with
  | nil => rfl
  | cons entry rest ih =>
      rw [replaceReason]
      split
      · rename_i same
        simp [same]
      · simp [ih]

theorem blocked_iff (world : World) (scope : Nat) : world.blocked scope = true ↔
    none ∈ world.pendingAborts.map (·.1) ∨ some scope ∈ world.pendingAborts.map (·.1) := by
  simp only [blocked, List.any_eq_true, List.mem_map]
  constructor
  · rintro ⟨⟨pending, reason⟩, member, isIn⟩
    cases pending with
    | none => exact .inl ⟨_, member, rfl⟩
    | some other =>
        rw [inScope, Option.all_some, beq_iff_eq] at isIn
        exact .inr ⟨_, member, by rw [isIn]⟩
  · rintro (⟨entry, member, same⟩ | ⟨entry, member, same⟩)
    · exact ⟨entry, member, by rw [same]; rfl⟩
    · exact ⟨entry, member, by rw [same, inScope, Option.all_some, beq_self_eq_true]⟩

/-- The aborts that are pending after another one. -/
structure Pushed (scope : Option Nat) (reason : TaskFailure)
    (pendingAborts pendingAborts' : List (Option Nat × TaskFailure)) : Prop where
  covers : scope ∈ pendingAborts'.map (·.1)
  keeps : scope ≠ none → ∀ other ∈ pendingAborts.map (·.1), other ∈ pendingAborts'.map (·.1)
  replaces : scope = none → pendingAborts' = [(none, reason)]
  appends : scope ≠ none → scope ∉ pendingAborts.map (·.1) →
    pendingAborts' = pendingAborts ++ [(scope, reason)]

theorem pushAbort_spec {scope : Option Nat} {reason : TaskFailure}
    (pending : Pending world.tasks world.pendingAborts) (admitted : Scoped world)
    (rooted : ∀ other, scope = some other → HasOwned world.tasks other)
    (uncovered : scope ≠ none → none ∉ world.pendingAborts.map (·.1)) :
    ∃ pendingAborts, world.pushAbort scope reason = .ok { world with pendingAborts } ∧
      Pending world.tasks pendingAborts ∧
      Pushed scope reason world.pendingAborts pendingAborts := by
  rw [pushAbort]
  cases scope with
  | none =>
      refine ⟨[(none, reason)], ?_, ⟨List.nodup_singleton _, fun _ => rfl, by simp⟩, by simp,
        by simp, by simp, fun some => absurd rfl some⟩
      simp only [Option.isNone_none, if_true, List.any_nil, Bool.false_eq_true, if_false,
        List.length_nil, List.nil_append]
      rw [ensure_of world.config.positive, ok_bind]
      rfl
  | some scope =>
      simp only [Option.isNone_some, Bool.false_eq_true, if_false]
      by_cases known : some scope ∈ world.pendingAborts.map (·.1)
      · obtain ⟨entry, member, same⟩ := List.mem_map.mp known
        refine ⟨replaceReason (some scope) reason world.pendingAborts, ?_, ⟨?_, ?_, ?_⟩,
          ⟨?_, ?_, by simp, fun _ absent => absurd known absent⟩⟩
        · rw [if_pos (List.any_eq_true.mpr ⟨entry, member, by simp [same]⟩)]
          rfl
        · rw [replaceReason_scopes]
          exact pending.distinct
        · rw [replaceReason_scopes, ← List.length_map (·.1), replaceReason_scopes,
            List.length_map]
          exact pending.alone
        · rw [replaceReason_scopes]
          exact pending.rooted
        · rw [replaceReason_scopes]
          exact known
        · rw [replaceReason_scopes]
          exact fun _ _ => id
      · have absent : ¬ (world.pendingAborts.any (·.1 == some scope)) = true := by
          rw [List.any_eq_true]
          rintro ⟨entry, member, same⟩
          exact known (List.mem_map.mpr ⟨entry, member, by simpa using same⟩)
        have pending' : Pending world.tasks (world.pendingAborts ++ [(some scope, reason)]) := by
          refine ⟨?_, fun all => ?_, fun other member => ?_⟩
          · rw [List.map_append, List.nodup_append]
            refine ⟨pending.distinct, List.nodup_singleton _, ?_⟩
            rintro other member _ isLast rfl
            rw [List.mem_singleton.mp isLast] at member
            exact known member
          · simp [uncovered (by simp)] at all
          · rw [List.map_append, List.mem_append] at member
            rcases member with member | member
            · exact pending.rooted other member
            · exact rooted other (List.mem_singleton.mp member).symm
        have admitted' : Scoped
            { world with pendingAborts := world.pendingAborts ++ [(some scope, reason)] } :=
          ⟨admitted.distinct, admitted.bounded, admitted.fresh, admitted.live, admitted.queued,
            admitted.issued⟩
        have fits := Pending.length_le pending' admitted'
        refine ⟨world.pendingAborts ++ [(some scope, reason)], ?_, pending', by simp, ?_, by simp,
          fun _ _ => rfl⟩
        · rw [if_neg absent, ensure_of (Nat.lt_of_succ_le (by simpa using fits)), ok_bind]
          rfl
        · intro _ other member
          rw [List.map_append]
          exact List.mem_append_left _ member

end World

end VThread.Kernel
