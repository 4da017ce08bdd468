import VThread.Inherited.Steps

/-!
# No lost inherited cancellation

Once the cancels that marked a token have returned, no subscription to the token is still
active; a registration on a cancelled token selects its own generation; and nothing else
is ever selected by a cancel.
-/

namespace VThread.Inherited

open VThread.Lib VThread.Wait VThread.Cancellation

variable {ι τ ρ η : Type} [DecidableEq ι] [DecidableEq τ] [DecidableEq ρ] [DecidableEq η]
variable {owner : Nat → ι}

/-! ## The invariants of a run -/

/-- The shared invariant: a subscribed node is kept alive by its task. -/
structure SharedInv (owner : Nat → ι) (shared : Shared ι τ ρ η) : Prop where
  inv : shared.domain.Inv
  subscribed : ∀ node subscription, shared.domain.subscribed node = some subscription →
    (owner node, node) ∈ shared.borrowed ∧ node ∈ shared.domain.strong

/-- The local invariant: the thread keeps the nodes it uses alive. -/
structure LocalInv (owner : Nat → ι) (thread : ι) (shared : Shared ι τ ρ η) (mine : Local) :
    Prop where
  fact : Fact owner thread shared.domain mine
  borrowed : ∀ node ∈ mine.nodes, (thread, node) ∈ shared.borrowed

/-- What a step of `thread` leads to. -/
structure StepInv (owner : Nat → ι) (thread : ι) (shared shared' : Shared ι τ ρ η)
    (mine : Local) : Prop where
  inv : SharedInv owner shared'
  own : LocalInv owner thread shared' mine
  others : ∀ other, other ≠ thread → View owner other shared.domain shared'.domain
  kept : ∀ other, other ≠ thread → ∀ node, (other, node) ∈ shared.borrowed →
    (other, node) ∈ shared'.borrowed ∧
      (node ∈ shared.domain.strong → node ∈ shared'.domain.strong)

section Step

variable {thread : ι} {shared shared' : Shared ι τ ρ η} {mine mine' : Local}

/-- A subscription is used by the task that owns its node. -/
theorem Fact.mem_nodes {domain : Domain ι τ ρ η} (fact : Fact owner thread domain mine)
    (inv : domain.Inv) {node : Nat} {subscription : Subscription} (own : owner node = thread)
    (subscribed : domain.subscribed node = some subscription) : node ∈ mine.nodes := by
  have node_eq := (inv.slots.subscribed node subscription subscribed).node_eq
  rw [← node_eq]
  rcases fact.owned node subscription own subscribed with member | made
  · exact List.mem_append_left _ (List.mem_map_of_mem member)
  · apply List.mem_append_right
    have call := fact.call
    cases at_call : mine.call with
    | registering _ stage =>
        rw [at_call] at made call
        obtain ⟨-, -, -, -, -, stageFact⟩ := call
        apply List.mem_singleton.2
        cases stage with
        | check other =>
            cases made
            exact stageFact.node_eq
        | select other =>
            cases made
            exact stageFact.node_eq
        | selecting other =>
            cases made
            exact stageFact.1.node_eq
        | _ => cases made
    | dropping =>
        rw [at_call] at made
        cases made
        exact List.mem_singleton.2 rfl
    | _ =>
        rw [at_call] at made
        cases made

theorem run_inv {choice : Choice τ ρ η} {domain : Domain ι τ ρ η}
    (inv : SharedInv owner shared) (own : LocalInv owner thread shared mine)
    (taken : runStep owner thread choice shared.domain mine = some (domain, mine')) :
    StepInv owner thread shared ⟨domain, borrow thread mine'.nodes shared.borrowed⟩ mine' := by
  have good := runStep_good inv.inv own.fact taken
  have mine_borrowed : ∀ node ∈ mine'.nodes,
      (thread, node) ∈ borrow thread mine'.nodes shared.borrowed :=
    fun node member => List.mem_append_left _ (List.mem_map_of_mem member)
  have others_borrowed : ∀ other, other ≠ thread → ∀ node, (other, node) ∈ shared.borrowed →
      (other, node) ∈ borrow thread mine'.nodes shared.borrowed := by
    intro other ne node member
    apply List.mem_append_right
    exact List.mem_filter.2 ⟨member, by simpa using ne⟩
  refine ⟨⟨good.inv, fun node subscription at_node => ?_⟩, ⟨good.fact, mine_borrowed⟩,
    fun other ne => good.frame.view ne,
    fun other ne node member => ⟨others_borrowed other ne node member, good.strong node⟩⟩
  by_cases equal : owner node = thread
  · have used := good.fact.mem_nodes good.inv equal at_node
    rw [equal]
    exact ⟨mine_borrowed node used, good.fact.strong node used⟩
  · have before : shared.domain.subscribed node = some subscription := by
      rw [← good.frame.subscribed node equal]
      exact at_node
    obtain ⟨member, strong⟩ := inv.subscribed node subscription before
    exact ⟨others_borrowed _ equal node member, good.strong node strong⟩

/-- The drop of an unused node concerns nobody. -/
theorem node_inv (inv : SharedInv owner shared) (own : LocalInv owner thread shared mine)
    (world : World Nat) (strong : Finset Nat) (leaving : Nat → Option Bool) (retired : List Nat)
    (waits : Nat → Option FallbackWait)
    (graphed : ({ shared.domain with world, strong, leaving, retired, fallbackWaits := waits } :
      Domain ι τ ρ η).Graphed)
    (count : shared.domain.world.reference.count ≤ world.reference.count)
    (kept : ∀ node, node ∈ shared.domain.strong → (∃ thread, (thread, node) ∈ shared.borrowed) →
      node ∈ strong ∧ waits node = shared.domain.fallbackWaits node) :
    StepInv owner thread shared { shared with domain :=
      { shared.domain with world, strong, leaving, retired, fallbackWaits := waits } } mine := by
  have view : ∀ other, View owner other shared.domain
      { shared.domain with world, strong, leaving, retired, fallbackWaits := waits } :=
    fun other => { View.refl owner other shared.domain with born := count }
  have slots : ({ shared.domain with world, strong, leaving, retired, fallbackWaits := waits } :
      Domain ι τ ρ η).SlotsInv := by
    refine ⟨fun subscription member => ?_, inv.inv.slots.dropped, inv.inv.slots.empty,
      fun node subscription at_node => ?_⟩
    · obtain ⟨born, serial, nonzero, least, issued, route⟩ :=
        inv.inv.slots.registered subscription member
      exact ⟨Nat.lt_of_lt_of_le born count, serial, nonzero, least, issued, route⟩
    · obtain ⟨node_eq, registered, undropped, active_eq, entry⟩ :=
        inv.inv.slots.subscribed node subscription at_node
      obtain ⟨member, isStrong⟩ := inv.subscribed node subscription at_node
      exact ⟨node_eq, registered, undropped, active_eq,
        fun kind => (kept node isStrong ⟨_, member⟩).2.trans (entry kind)⟩
  refine ⟨⟨⟨graphed, inv.inv.cells, slots, inv.inv.settled⟩, fun node subscription at_node => ?_⟩,
    ⟨(view thread).fact inv.inv own.fact fun node member => ?_, own.borrowed⟩,
    fun other _ => view other, fun other _ node member => ⟨member, fun isStrong => ?_⟩⟩
  · obtain ⟨member, isStrong⟩ := inv.subscribed node subscription at_node
    exact ⟨member, (kept node isStrong ⟨_, member⟩).1⟩
  · exact (kept node (own.fact.strong node member) ⟨_, own.borrowed node member⟩).1
  · exact (kept node isStrong ⟨_, member⟩).1

theorem nextStep_inv {choice : Choice τ ρ η} (inv : SharedInv owner shared)
    (own : LocalInv owner thread shared mine)
    (taken : nextStep owner thread choice shared mine = some (shared', mine')) :
    StepInv owner thread shared shared' mine' := by
  obtain ⟨request, wait⟩ := choice
  cases request with
  | release node =>
      obtain ⟨result, stepped, equal⟩ := Option.map_eq_some_iff.1 taken
      rw [nodeStep] at stepped
      split at stepped
      · rename_i permitted
        cases stepped
        cases equal
        apply node_inv inv own _ _ _ _ _ (release_graphed inv.inv.graph permitted.1) (Nat.le_refl _)
        rintro other isStrong ⟨user, member⟩
        exact ⟨Finset.mem_erase.2 ⟨permitted.2 _ member, isStrong⟩, rfl⟩
      · cases stepped
  | forget node =>
      obtain ⟨result, stepped, equal⟩ := Option.map_eq_some_iff.1 taken
      rw [nodeStep] at stepped
      split at stepped
      · rename_i leaves
        cases stepped
        cases equal
        apply node_inv inv own _ _ _ _ _ (forget_graphed inv.inv.graph leaves _) (Nat.le_refl _)
        rintro other isStrong -
        refine ⟨isStrong, Function.update_of_ne ?_ ..⟩
        rintro rfl
        exact (inv.inv.graph.leaving_live other _ leaves).2.1 isStrong
      · cases stepped
  | retire node =>
      obtain ⟨result, stepped, equal⟩ := Option.map_eq_some_iff.1 taken
      rw [nodeStep] at stepped
      split at stepped
      · rename_i leaves
        obtain ⟨world, retired, retires, graphed, reference⟩ := retire_spec inv.inv.graph leaves
        rw [retires] at stepped
        cases stepped
        cases equal
        exact node_inv inv own _ _ _ _ _ graphed (by rw [reference])
          fun other isStrong _ => ⟨isStrong, rfl⟩
      · cases stepped
  | _ =>
      obtain ⟨⟨domain, mine''⟩, stepped, equal⟩ := Option.map_eq_some_iff.1 taken
      cases equal
      exact run_inv inv own stepped

end Step

theorem initial_inv (owner : Nat → ι) :
    SharedInv owner (⟨.initial, []⟩ : Shared ι τ ρ η) where
  inv := by
    refine ⟨⟨World.agrees_initial, nofun, nofun, nofun, nofun, .nil, nofun, nofun, nofun⟩,
      fun cell => ⟨Wait.fresh_reachable cell, rfl⟩, ⟨nofun, nofun, fun _ _ => rfl, nofun⟩, nofun⟩
  subscribed := nofun

omit [DecidableEq ι] [DecidableEq τ] [DecidableEq ρ] [DecidableEq η] in
theorem initial_local (owner : Nat → ι) (thread : ι) :
    LocalInv owner thread (⟨.initial, []⟩ : Shared ι τ ρ η) ⟨[], .rest none⟩ where
  fact := ⟨nofun, nofun, .nil, nofun, nofun, nofun, nofun, fun _ _ => ⟨none, rfl⟩, nofun⟩
  borrowed := nofun

/-- Both invariants hold in every reachable state. -/
theorem reachable_inv {state : Threads ι (Shared ι τ ρ η) Local}
    (reachable : (program owner).system.Reachable state) :
    SharedInv owner state.shared ∧
      ∀ thread, LocalInv owner thread state.shared (state.locals thread) := by
  apply Program.invariant ?_ ?_ ?_ reachable
  · rintro _ rfl
    exact ⟨initial_inv owner, initial_local owner⟩
  · rintro thread shared mine shared' mine' inv own ⟨choice, taken⟩
    have result := nextStep_inv inv own taken
    exact ⟨result.inv, result.own⟩
  · rintro thread other shared mine others shared' mine' ne inv own otherOwn ⟨choice, taken⟩
    have result := nextStep_inv inv own taken
    refine ⟨(result.others other ne).fact inv.inv otherOwn.fact fun node member => ?_,
      fun node member => (result.kept other ne node (otherOwn.borrowed node member)).1⟩
    exact (result.kept other ne node (otherOwn.borrowed node member)).2
      (otherOwn.fact.strong node member)

/-! ## No lost cancellation -/

/-- The generation a token names is not active: somebody has won it, or its owner has
retired it. -/
structure Resolved (cells : Nat → Threads ι (Wait.Shared ι τ ρ η) (Wait.Pc τ ρ η))
    (token : ParkToken) : Prop where
  inactive : (cells token.wait).shared.cell.state.phase = .active →
    (cells token.wait).shared.cell.state.generation ≠ token.generation
  settled : (∃ winner cause,
      ((cells token.wait).shared.history token.generation).claims = [(winner, cause)]) ∨
    ((cells token.wait).shared.history token.generation).retired = true

theorem Passed.resolved {cells : Nat → Threads ι (Wait.Shared ι τ ρ η) (Wait.Pc τ ρ η)}
    {token : ParkToken} (passed : Passed cells token) (inv : CellsInv cells)
    (positive : 0 < token.generation) : Resolved cells token where
  inactive := by
    intro active generation
    rcases passed with lt | ⟨-, -, notActive⟩
    · exact Nat.ne_of_lt lt generation.symm
    · exact notActive active
  settled := Shared.Passed.settled passed (Wait.reachable_inv (inv token.wait).1).1 positive

/-- What holds of the subscriptions in every state: a cancellation that has returned is
delivered once no other canceller has the token before it, a registration that starts on a
cancelled token returns with its generation resolved, and a slot is occupied exactly by
the subscription that its task has not finished dropping. -/
structure Delivers (owner : Nat → ι) (state : Threads ι (Shared ι τ ρ η) Local) : Prop where
  delivered : ∀ root ∈ state.shared.domain.returned, ∀ thread,
    ∀ subscription ∈ (state.locals thread).held,
      state.shared.domain.world.reference.Descends root subscription.node →
        (∀ other, subscription.node ∉ (state.locals other).call.pending) →
          Resolved state.shared.domain.cells subscription.token
  registered : ∀ thread, ∀ subscription ∈ (state.locals thread).held,
    subscription.late = true → Resolved state.shared.domain.cells subscription.token
  occupied : ∀ thread, ∀ subscription ∈ (state.locals thread).held,
    owner subscription.node = thread ∧ subscription.active ≠ 0#64 ∧
      (state.shared.domain.slots subscription.node).active = subscription.active
  released : ∀ node, (state.shared.domain.slots node).active ≠ 0#64 →
    ∃ subscription, subscription.node = node ∧
      (state.shared.domain.slots node).active = subscription.active ∧
        (subscription ∈ (state.locals (owner node)).held ∨
          (state.locals (owner node)).call.subscription? = some subscription)
  admitted : ∀ thread, (state.locals thread).call ≠ .rest (some (.fault concurrentWaitFault))

/-- What the generations that a step of a canceller claims belong to: a subscription to a
token that the canceller has marked, not dropped when it started. -/
def SelectsOwn (thread : ι) (state : Threads ι (Shared ι τ ρ η) Local)
    (shared : Shared ι τ ρ η) : Prop :=
  ∀ root before marked stage,
    (state.locals thread).call = .cancelling root before marked stage →
      ∀ cell generation,
        Wait.Claims (state.shared.domain.cells cell).shared (shared.domain.cells cell).shared
          generation →
            ∃ subscription ∈ state.shared.domain.registrations, subscription ∉ before ∧
              subscription.node ∈ marked ∧ subscription.token = ⟨cell, generation⟩

section Delivers

variable {state : Threads ι (Shared ι τ ρ η) Local}

/-- A subscription that no canceller has to visit has passed when its token is cancelled. -/
theorem held_passed (inv : SharedInv owner state.shared)
    (locals : ∀ thread, LocalInv owner thread state.shared (state.locals thread)) {thread : ι}
    {subscription : Subscription} (member : subscription ∈ (state.locals thread).held)
    (cancelled : state.shared.domain.cancelled subscription.node = true)
    (unowed : ∀ other, subscription.node ∉ (state.locals other).call.pending) :
    Passed state.shared.domain.cells subscription.token := by
  have holding := (locals thread).fact.held subscription member
  rcases inv.inv.settled _ _ cancelled holding.subscribed with
    registering | passed | ⟨other, debt⟩
  · rw [holding.returned] at registering
    cases registering
  · exact passed
  · exact (unowed other ((locals other).fact.debts _ debt)).elim

/-- A token below a requested one is cancelled. -/
theorem requested_cancelled {domain : Domain ι τ ρ η} (inv : domain.Inv) {root node : Nat}
    (requested : root ∈ domain.requested) (strong : node ∈ domain.strong)
    (descends : domain.world.reference.Descends root node) : domain.cancelled node = true :=
  (inv.graph.flags node strong).2 ((inv.graph.requested_marks root requested).2 node descends)

theorem reachable_delivers (reachable : (program owner).system.Reachable state) :
    Delivers owner state := by
  obtain ⟨inv, locals⟩ := reachable_inv reachable
  have holds : ∀ thread, ∀ subscription ∈ (state.locals thread).held,
      Holding owner thread state.shared.domain subscription :=
    fun thread => (locals thread).fact.held
  have positive : ∀ thread, ∀ subscription ∈ (state.locals thread).held,
      0 < subscription.token.generation := by
    intro thread subscription member
    have subscribed := (holds thread subscription member).subscribed
    exact (inv.inv.slots.registered subscription
      (inv.inv.slots.subscribed _ _ subscribed).registered).positive
  refine ⟨?delivered, ?registered, ?occupied, ?released, ?admitted⟩
  case delivered =>
    intro root returned thread subscription member descends unowed
    have requested := inv.inv.graph.returned_requested root returned
    have strong := (locals thread).fact.strong subscription.node
      (List.mem_append_left _ (List.mem_map_of_mem member))
    have cancelled := requested_cancelled inv.inv requested strong descends
    exact (held_passed inv locals member cancelled unowed).resolved inv.inv.cells
      (positive thread subscription member)
  case registered =>
    intro thread subscription member late
    exact ((locals thread).fact.late subscription member late).resolved inv.inv.cells
      (positive thread subscription member)
  case occupied =>
    intro thread subscription member
    have holding := holds thread subscription member
    have slot := inv.inv.slots.subscribed _ _ holding.subscribed
    exact ⟨holding.owner_eq, (inv.inv.slots.registered _ slot.registered).nonzero, slot.active_eq⟩
  case released =>
    intro node occupied
    cases at_node : state.shared.domain.subscribed node with
    | none => exact (occupied (inv.inv.slots.empty node at_node)).elim
    | some subscription =>
        have slot := inv.inv.slots.subscribed node subscription at_node
        exact ⟨subscription, slot.node_eq, slot.active_eq,
          (locals (owner node)).fact.owned node subscription rfl at_node⟩
  case admitted =>
    intro thread rests
    have call := (locals thread).fact.call
    rw [rests] at call
    exact call rfl

/-- The drop of a node leaves the wait cells alone. -/
theorem nodeStep_cells {domain domain' : Domain ι τ ρ η} (inv : domain.Inv)
    {borrowed : List (ι × Nat)} {request : Request τ ρ η}
    (taken : nodeStep domain borrowed request = some (.ok domain')) :
    domain'.cells = domain.cells := by
  cases request with
  | release | forget =>
      rw [nodeStep] at taken
      split at taken
      · cases taken
        rfl
      · cases taken
  | retire node =>
      rw [nodeStep] at taken
      split at taken
      · rename_i leaves
        obtain ⟨world, retired, retires, -⟩ := retire_spec inv.graph leaves
        rw [retires] at taken
        cases taken
        rfl
      · cases taken
  | _ => cases taken

/-- A step leaves the wait cells alone or is one of the thread's own call. -/
theorem nextStep_run {thread : ι} {choice : Choice τ ρ η} {shared shared' : Shared ι τ ρ η}
    {mine mine' : Local} (inv : shared.domain.Inv)
    (taken : nextStep owner thread choice shared mine = some (shared', mine')) :
    shared'.domain.cells = shared.domain.cells ∨
      runStep owner thread choice shared.domain mine = some (shared'.domain, mine') := by
  have drops : ∀ request (next : Checked (Domain ι τ ρ η) → Shared ι τ ρ η × Local),
      (∀ domain, (next (.ok domain)).1.domain = domain) →
      (∀ message, (next (.error message)).1 = shared) →
      (nodeStep shared.domain shared.borrowed request).map next = some (shared', mine') →
        shared'.domain.cells = shared.domain.cells := by
    intro request next goes stays dropped
    obtain ⟨result, stepped, equal⟩ := Option.map_eq_some_iff.1 dropped
    rw [← show (next result).1 = shared' from congrArg Prod.fst equal]
    cases result with
    | error => rw [stays]
    | ok domain =>
        rw [goes]
        exact nodeStep_cells inv stepped
  obtain ⟨request, wait⟩ := choice
  cases request with
  | release | forget | retire => exact .inl (drops _ _ (fun _ => rfl) (fun _ => rfl) taken)
  | _ =>
      obtain ⟨⟨domain, mine''⟩, stepped, equal⟩ := Option.map_eq_some_iff.1 taken
      cases equal
      exact .inr stepped

theorem nextStep_selects {thread : ι} {choice : Choice τ ρ η} {shared' : Shared ι τ ρ η}
    {mine' : Local} (reachable : (program owner).system.Reachable state)
    (taken : nextStep owner thread choice state.shared (state.locals thread) =
      some (shared', mine')) : SelectsOwn thread state shared' := by
  intro root before marked stage at_call cell generation claims
  obtain ⟨inv, locals⟩ := reachable_inv reachable
  have fact := (locals thread).fact
  generalize state.locals thread = mine at at_call fact taken
  obtain ⟨held, call⟩ := mine
  cases at_call
  rcases nextStep_run inv.inv taken with same | stepped
  · exact (not_claims (by rw [same]) claims).elim
  · obtain ⟨⟨domain, call⟩, stepped, equal⟩ := Option.map_eq_some_iff.1 stepped
    obtain ⟨rfl, -⟩ := Prod.mk.inj equal
    exact cancelStep_claims inv.inv fact stepped claims

/-- No inherited cancellation is lost, and none is delivered to another generation. -/
theorem inherited_cancellation (reachable : (program owner).system.Reachable state) :
    Delivers owner state ∧ ∀ thread choice shared' mine',
      nextStep owner thread choice state.shared (state.locals thread) = some (shared', mine') →
        SelectsOwn thread state shared' :=
  ⟨reachable_delivers reachable, fun _ _ _ _ taken => nextStep_selects reachable taken⟩

end Delivers

/-! ## Overlapping cancels -/

/-- All threads rest. -/
def unused : Threads (Fin 3) (Shared (Fin 3) Nat Nat Nat) Local :=
  ⟨⟨.initial, []⟩, fun _ => ⟨[], .rest none⟩⟩

theorem unused_reachable (owner : Nat → Fin 3) : (program owner).system.Reachable unused :=
  .initial ⟨rfl, fun _ => rfl⟩

def beginPark : Wait.Choice Nat Nat Nat := ⟨.begin ⟨7, 3, 5⟩, false, false⟩

/-- Thread 2 begins a park on cell 5 and registers it on the first token. -/
def registeredSchedule : List (Fin 3 × Choice Nat Nat Nat) :=
  (0, ⟨.insert [], beginPark⟩) :: List.replicate 10 (2, ⟨.wait 5, beginPark⟩) ++
    (2, ⟨.register 0 false ⟨5, 1⟩ 5, beginPark⟩) ::
      List.replicate 5 (2, ⟨.proceed, beginPark⟩)

/-- Thread 0 cancels the token. -/
def deliveredSchedule : List (Fin 3 × Choice Nat Nat Nat) :=
  registeredSchedule ++ (0, ⟨.cancel 0, beginPark⟩) ::
    List.replicate 13 (0, ⟨.proceed, beginPark⟩)

/-- Thread 1 cancels the token while thread 0 has only marked it. -/
def overlappedSchedule : List (Fin 3 × Choice Nat Nat Nat) :=
  registeredSchedule ++ (0, ⟨.cancel 0, beginPark⟩) :: (0, ⟨.proceed, beginPark⟩) ::
    (1, ⟨.cancel 0, beginPark⟩) :: List.replicate 3 (1, ⟨.proceed, beginPark⟩)

theorem inherited_cancellation_delivered :
    ∃ state, (scheduler fun _ => 2).run deliveredSchedule unused = some state ∧
      ∃ subscription ∈ (state.locals 2).held, subscription.token = ⟨5, 1⟩ ∧
        Resolved state.shared.domain.cells subscription.token := by
  have runs : ((scheduler fun _ => 2).run deliveredSchedule unused).map (fun state =>
      (state.shared.domain.returned, (state.locals 2).held,
        (state.locals 0).call.pending, (state.locals 1).call.pending,
          (state.locals 2).call.pending)) =
      some ([0], [⟨0, 1, ⟨5, 1⟩, false, 0⟩], [], [], []) := by decide
  obtain ⟨state, runs, view⟩ := Option.map_eq_some_iff.mp runs
  simp only [Prod.mk.injEq] at view
  obtain ⟨returned, held, first, second, third⟩ := view
  have reachable := (scheduler fun _ => 2).run_reachable (unused_reachable fun _ => 2) runs
  have member : (⟨0, 1, ⟨5, 1⟩, false, 0⟩ : Subscription) ∈ (state.locals 2).held := by
    rw [held]
    exact List.mem_singleton.2 rfl
  refine ⟨state, runs, _, member, rfl, ?_⟩
  apply (inherited_cancellation reachable).1.delivered 0 (by simp [returned]) 2 _ member .refl
  intro other
  match other with
  | 0 => simp [first]
  | 1 => simp [second]
  | 2 => simp [third]

def Call.registers : Call → Bool
  | .registering .. => true
  | _ => false

/-- A cancel that finds the token marked returns before the canceller that marked it has
selected anything. -/
theorem overlapping_cancel_returns :
    ∃ state : Threads (Fin 3) (Shared (Fin 3) Nat Nat Nat) Local,
      (program fun _ => 2).system.Reachable state ∧
        (∀ thread, (state.locals thread).call.registers = false) ∧
          ∃ root ∈ state.shared.domain.returned, ∃ subscription ∈ (state.locals 2).held,
            state.shared.domain.world.reference.Descends root subscription.node ∧
              (state.shared.domain.cells subscription.token.wait).shared.cell.state.phase =
                  .active ∧
                (state.shared.domain.cells subscription.token.wait).shared.cell.state.generation =
                  subscription.token.generation := by
  have runs : ((scheduler fun _ => 2).run overlappedSchedule unused).map (fun state =>
      (state.shared.domain.returned, (state.locals 2).held,
        ((List.finRange 3).map fun thread => (state.locals thread).call.registers),
          (state.shared.domain.cells 5).shared.cell.state.phase,
            (state.shared.domain.cells 5).shared.cell.state.generation)) =
      some ([0], [⟨0, 1, ⟨5, 1⟩, false, 0⟩], [false, false, false], .active, 1) := by decide
  obtain ⟨state, runs, view⟩ := Option.map_eq_some_iff.mp runs
  simp only [Prod.mk.injEq] at view
  obtain ⟨returned, held, calls, phase, generation⟩ := view
  have reachable := (scheduler fun _ => 2).run_reachable (unused_reachable fun _ => 2) runs
  refine ⟨state, reachable, fun thread => ?_, 0, by simp [returned], ⟨0, 1, ⟨5, 1⟩, false, 0⟩,
    by rw [held]; exact List.mem_singleton.2 rfl, .refl, phase, generation⟩
  have member : (state.locals thread).call.registers ∈
      (List.finRange 3).map fun thread => (state.locals thread).call.registers :=
    List.mem_map_of_mem (List.mem_finRange thread)
  rw [calls] at member
  simpa using member

end VThread.Inherited
