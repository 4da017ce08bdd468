import VThread.Inherited.Invariant

/-!
# Frames keep the local invariants

A step on a wait cell keeps the shared invariant, and what a thread knows survives every
step that keeps its frame.
-/

namespace VThread.Inherited

open VThread.Lib VThread.Wait VThread.Cancellation

variable {ι τ ρ η : Type}

/-! ## Born nodes -/

theorem born_of_live {domain : Domain ι τ ρ η} (agrees : domain.world.Agrees) {node : Nat}
    (live : node ∈ domain.world.live) : domain.Born node := by
  obtain ⟨entry, found, -⟩ := (agrees.live_iff node).1 live
  rw [Domain.Born, ← agrees.next_eq]
  exact agrees.settled.wf.lt_next found

/-- The slots keep their invariant when nothing about them changes. -/
theorem Domain.SlotsInv.mono {domain domain' : Domain ι τ ρ η} (inv : domain.SlotsInv)
    (born : domain.world.reference.count ≤ domain'.world.reference.count)
    (issued : ∀ cell, (domain.cells cell).shared.issued ≤ (domain'.cells cell).shared.issued)
    (slots : domain'.slots = domain.slots)
    (fallbackWaits : domain'.fallbackWaits = domain.fallbackWaits)
    (subscribed : domain'.subscribed = domain.subscribed)
    (registrations : domain'.registrations = domain.registrations)
    (dropped : domain'.dropped = domain.dropped) : domain'.SlotsInv where
  registered subscription member := by
    rw [registrations] at member
    have registered := inv.registered subscription member
    refine ⟨Nat.lt_of_lt_of_le registered.born born, ?_, registered.nonzero,
      registered.positive, Nat.le_trans registered.issued (issued _), ?_⟩
    · rw [registrations]
      exact registered.serial
    · rw [Domain.Route, slots]
      exact registered.route
  dropped subscription member := by
    rw [dropped] at member
    rw [registrations]
    exact inv.dropped subscription member
  empty node none := by
    rw [subscribed] at none
    rw [slots]
    exact inv.empty node none
  subscribed node subscription at_node := by
    rw [subscribed] at at_node
    obtain ⟨node_eq, registered, undropped, active_eq, entry⟩ :=
      inv.subscribed node subscription at_node
    refine ⟨node_eq, ?_, ?_, ?_, ?_⟩
    · rw [registrations]
      exact registered
    · rw [dropped]
      exact undropped
    · rw [slots]
      exact active_eq
    · rw [fallbackWaits]
      exact entry

/-! ## Local facts -/

section Keep

variable {owner : Nat → ι} {thread other : ι} {domain domain' : Domain ι τ ρ η}

theorem Grows.refl (domain : Domain ι τ ρ η) : Grows domain domain where
  born := Nat.le_refl _
  cancelled _ _ cancelled := cancelled
  covers _ _ _ _ covers := covers
  passed _ passed := passed
  issued _ := Nat.le_refl _
  registrations _ member := member
  dropped _ member := member
  requested _ member := member

theorem View.refl (owner : Nat → ι) (thread : ι) (domain : Domain ι τ ρ η) :
    View owner thread domain domain where
  toGrows := .refl domain
  slots _ _ _ := rfl
  subscribed _ _ := rfl
  registering _ _ := rfl
  locals _ := rfl
  debts _ debt := debt

theorem Frame.refl (owner : Nat → ι) (thread : ι) (domain : Domain ι τ ρ η) :
    Frame owner thread domain domain where
  toGrows := .refl domain
  slots _ _ _ := rfl
  subscribed _ _ := rfl
  registering _ _ := rfl
  locals _ _ _ := rfl
  debts _ _ _ debt := debt

theorem Frame.trans {domain'' : Domain ι τ ρ η} (first : Frame owner thread domain domain')
    (second : Frame owner thread domain' domain'') : Frame owner thread domain domain'' := by
  have born : ∀ node, domain.Born node → domain'.Born node :=
    fun node old => Nat.lt_of_lt_of_le old first.born
  exact {
    born := Nat.le_trans first.born second.born
    cancelled := fun node old cancelled =>
      second.cancelled node (born node old) (first.cancelled node old cancelled)
    slots := fun node old foreign =>
      (second.slots node (born node old) foreign).trans (first.slots node old foreign)
    subscribed := fun node foreign =>
      (second.subscribed node foreign).trans (first.subscribed node foreign)
    registering := fun node foreign =>
      (second.registering node foreign).trans (first.registering node foreign)
    covers := fun node subscription old cancelled covers =>
      second.covers node subscription (born node old) (first.cancelled node old cancelled)
        (first.covers node subscription old cancelled covers)
    locals := fun other ne cell =>
      (second.locals other ne cell).trans (first.locals other ne cell)
    passed := fun token passed => second.passed token (first.passed token passed)
    issued := fun cell => Nat.le_trans (first.issued cell) (second.issued cell)
    registrations := fun subscription member =>
      second.registrations _ (first.registrations _ member)
    dropped := fun subscription member => second.dropped _ (first.dropped _ member)
    requested := fun root member => second.requested _ (first.requested _ member)
    debts := fun other ne node debt => first.debts other ne node (second.debts other ne node debt) }

theorem Grows.met (grows : Grows domain domain') {before : List Subscription}
    {node : Nat} {subscription : Subscription} (born : domain.Born node)
    (cancelled : domain.cancelled node = true) (met : domain.Met before node subscription) :
    domain'.Met before node subscription where
  registered := grows.registrations _ met.registered
  recent := met.recent
  node_eq := met.node_eq
  covers := grows.covers _ _ born cancelled met.covers

theorem Grows.found (grows : Grows domain domain') {before : List Subscription}
    {entry : Found} (known : domain.Born entry.node ∧ domain.cancelled entry.node = true)
    (found : domain.FoundFact before entry) : domain'.FoundFact before entry := by
  obtain ⟨subscription, met, token, cell⟩ := found
  exact ⟨subscription, grows.met known.1 known.2 met, token, cell⟩

theorem Frame.view (frame : Frame owner thread domain domain') (ne : other ≠ thread) :
    View owner other domain domain' where
  toGrows := frame.toGrows
  slots node born own := frame.slots node born (own ▸ ne)
  subscribed node own := frame.subscribed node (own ▸ ne)
  registering node own := frame.registering node (own ▸ ne)
  locals := frame.locals other ne
  debts := frame.debts other ne

theorem View.holding (view : View owner thread domain domain')
    {subscription : Subscription} (holding : Holding owner thread domain subscription) :
    Holding owner thread domain' subscription := by
  refine ⟨holding.owner_eq, ?_, ?_⟩
  · rw [view.subscribed _ holding.owner_eq]
    exact holding.subscribed
  · rw [view.registering _ holding.owner_eq]
    exact holding.returned

theorem View.runs (view : View owner thread domain domain')
    {token : ParkToken} {cell : Nat} (runs : domain.Runs thread token cell) :
    domain'.Runs thread token cell := by
  obtain ⟨stage, at_stage, selecting⟩ := runs
  refine ⟨stage, ?_, selecting.keep (view.passed ⟨cell, token.generation⟩)⟩
  rw [view.locals cell]
  exact at_stage

theorem View.cancelFact (view : View owner thread domain domain')
    {root : Nat} {before : List Subscription} {stage : CancelStage}
    (known : ∀ node ∈ stage.pending, domain.Born node ∧ domain.cancelled node = true)
    (fact : CancelFact thread domain root before stage) :
    CancelFact thread domain' root before stage := by
  have entries : ∀ found : List Found, (∀ entry ∈ found, entry.node ∈ stage.pending) →
      (∀ entry ∈ found, domain.FoundFact before entry) →
        ∀ entry ∈ found, domain'.FoundFact before entry :=
    fun found pending facts entry member =>
      view.found (known _ (pending entry member)) (facts entry member)
  cases stage with
  | lock => trivial
  | visit nodes found =>
      refine ⟨view.requested _ fact.1, entries found (fun entry member => ?_) fact.2⟩
      exact List.mem_append_right _ (List.mem_map_of_mem member)
  | lookup _ node _ found =>
      obtain ⟨requested, facts, kind, subscription, met, active_eq⟩ := fact
      refine ⟨view.requested _ requested, entries found (fun entry member => ?_) facts, kind,
        subscription, ?_, active_eq⟩
      · exact List.mem_append_right _ (List.mem_map_of_mem member)
      · obtain ⟨born, cancelled⟩ := known node (List.mem_cons_self ..)
        exact view.met born cancelled met
  | fallback _ node _ found =>
      obtain ⟨requested, facts, kind, subscription, met, active_eq⟩ := fact
      refine ⟨view.requested _ requested, entries found (fun entry member => ?_) facts, kind,
        subscription, ?_, active_eq⟩
      · exact List.mem_append_right _ (List.mem_map_of_mem member)
      · obtain ⟨born, cancelled⟩ := known node (List.mem_cons_self ..)
        exact view.met born cancelled met
  | select found =>
      refine ⟨view.requested _ fact.1, entries found (fun entry member => ?_) fact.2⟩
      exact List.mem_map_of_mem member
  | selecting entry rest =>
      obtain ⟨requested, facts, first, runs⟩ := fact
      refine ⟨view.requested _ requested, entries rest (fun entry member => ?_) facts,
        view.found (known _ (List.mem_cons_self ..)) first, view.runs runs⟩
      exact List.mem_cons_of_mem _ (List.mem_map_of_mem member)

theorem View.made (view : View owner thread domain domain')
    {registration : Registration} {subscription : Subscription}
    (owner_eq : owner registration.node = thread) (made : Made domain registration subscription) :
    Made domain' registration subscription := by
  refine ⟨?_, ?_, made.node_eq, made.token_eq, made.late_eq⟩
  · rw [view.subscribed _ owner_eq]
    exact made.subscribed
  · rw [view.registering _ owner_eq]
    exact made.registering

theorem View.registerFact (view : View owner thread domain domain')
    {registration : Registration} {stage : RegisterStage}
    (born : domain.Born registration.node) (owner_eq : owner registration.node = thread)
    (fact : RegisterFact thread domain registration stage) :
    RegisterFact thread domain' registration stage := by
  have same := view.subscribed _ owner_eq
  cases stage with
  | peek | set | compare => exact same.trans fact
  | claim active =>
      obtain ⟨none, active_eq, cell⟩ := fact
      refine ⟨same.trans none, active_eq, ?_⟩
      rw [view.slots _ born owner_eq]
      exact cell
  | fallback => exact ⟨same.trans fact.1, fact.2⟩
  | check | select => exact view.made owner_eq fact
  | selecting => exact ⟨view.made owner_eq fact.1, view.runs fact.2⟩

variable [DecidableEq ι] [DecidableEq τ] [DecidableEq ρ] [DecidableEq η]

theorem Domain.Inv.born_of_strong (inv : domain.Inv) {node : Nat}
    (strong : node ∈ domain.strong) : domain.Born node :=
  born_of_live inv.graph.agrees (inv.graph.strong_live node strong)

/-- What a thread knows survives the steps of other threads. -/
theorem View.fact (view : View owner thread domain domain') (inv : domain.Inv) {mine : Local}
    (fact : Fact owner thread domain mine)
    (strong : ∀ node ∈ mine.nodes, node ∈ domain'.strong) : Fact owner thread domain' mine where
  held subscription member := view.holding (fact.held subscription member)
  late subscription member late := view.passed _ (fact.late subscription member late)
  nodup := fact.nodup
  apart := fact.apart
  owned node subscription owner_eq subscribed := by
    rw [view.subscribed node owner_eq] at subscribed
    exact fact.owned node subscription owner_eq subscribed
  strong := strong
  debts node debt := fact.debts node (view.debts node debt)
  resting cell away := by
    rw [view.locals cell]
    exact fact.resting cell away
  call := by
    have call := fact.call
    cases at_call : mine.call with
    | rest last =>
        rw [at_call] at call
        exact call
    | waiting cell => trivial
    | panicked => trivial
    | cancelling =>
        rw [at_call] at call
        obtain ⟨dropped, known, pending, stageFact⟩ := call
        refine ⟨fun subscription member => view.dropped _ (dropped subscription member),
          fun node member => ?_, pending,
          view.cancelFact (fun node member => known node (pending node member)) stageFact⟩
        obtain ⟨born, cancelled⟩ := known node member
        exact ⟨Nat.lt_of_lt_of_le born view.born, view.cancelled node born cancelled⟩
    | registering registration stage =>
        rw [at_call] at call
        obtain ⟨owner_eq, wait, positive, issued, late, stageFact⟩ := call
        have used : registration.node ∈ mine.nodes := by
          rw [Local.nodes, at_call]
          exact List.mem_append_right _ (List.mem_singleton.2 rfl)
        have born := inv.born_of_strong (fact.strong _ used)
        exact ⟨owner_eq, wait, positive, Nat.le_trans issued (view.issued _),
          fun isLate => view.cancelled _ born (late isLate),
          view.registerFact born owner_eq stageFact⟩
    | dropping =>
        rw [at_call] at call
        exact view.holding call

end Keep

/-! ## Steps on a wait cell -/

section Wait

variable [DecidableEq ι] [DecidableEq τ] [DecidableEq ρ] [DecidableEq η]
variable {owner : Nat → ι} {thread : ι} {choice : Wait.Choice τ ρ η}
variable {domain domain' : Domain ι τ ρ η} {cell : Nat} {pc : Wait.Pc τ ρ η}

/-- What a step of `thread` on `cell` does. -/
structure Worked (thread : ι) (domain : Domain ι τ ρ η) (cell : Nat)
    (domain' : Domain ι τ ρ η) (pc : Wait.Pc τ ρ η) : Prop where
  frame : ∃ cells, domain' = { domain with cells }
  cells : CellsInv domain'.cells
  pc_eq : (domain'.cells cell).locals thread = pc
  elsewhere : ∀ other, other ≠ cell → domain'.cells other = domain.cells other
  locals : ∀ other, other ≠ thread →
    (domain'.cells cell).locals other = (domain.cells cell).locals other
  change : Wait.Change thread (domain.cells cell).shared (domain'.cells cell).shared

theorem waitStep_worked (inv : CellsInv domain.cells)
    (taken : waitStep thread choice domain cell = some (domain', pc)) :
    Worked thread domain cell domain' pc := by
  rw [waitStep, Option.map_eq_some_iff] at taken
  obtain ⟨⟨shared, next⟩, stepped, equal⟩ := taken
  cases equal
  obtain ⟨reachable, id⟩ := inv cell
  have advance := (Wait.scheduler ι τ ρ η).sound thread choice _ _ _ stepped
  obtain ⟨cellInv, locals⟩ := reachable_inv reachable
  obtain ⟨change, -⟩ := advance_own cellInv (locals thread) advance
  refine ⟨⟨_, rfl⟩, fun other => ?_, by simp, fun other ne => by simp [ne],
    fun other ne => by simp [ne], by simpa using change⟩
  by_cases equal : other = cell
  · subst equal
    simp only [Function.update_self]
    exact ⟨.step reachable (.mk thread advance), change.id_eq.trans id⟩
  · simp only [Function.update_of_ne equal]
    exact inv other

variable (worked : Worked thread domain cell domain' pc)

include worked

theorem Worked.passed (token : ParkToken) (passed : Passed domain.cells token) :
    Passed domain'.cells token := by
  by_cases equal : token.wait = cell
  · rw [Passed, equal] at passed ⊢
    exact worked.change.passed passed
  · rw [Passed, worked.elsewhere _ equal]
    exact passed

theorem Worked.issued (inv : CellsInv domain.cells) (other : Nat) :
    (domain.cells other).shared.issued ≤ (domain'.cells other).shared.issued := by
  by_cases equal : other = cell
  · rw [equal]
    exact worked.change.issued_le (reachable_inv (inv cell).1).1
  · rw [worked.elsewhere _ equal]

theorem Worked.framed (inv : CellsInv domain.cells) : Frame owner thread domain domain' := by
  have passed := worked.passed
  have issued := worked.issued inv
  have elsewhere := worked.elsewhere
  have locals := worked.locals
  obtain ⟨cells, rfl⟩ := worked.frame
  refine { Frame.refl owner thread domain with passed, issued, locals := ?_, covers := ?_ }
  · intro node subscription born cancelled covers other subscribed
    rcases covers other subscribed with same | registering | settled
    · exact .inl same
    · exact .inr (.inl registering)
    · exact .inr (.inr (passed _ settled))
  · intro other ne at_cell
    by_cases equal : at_cell = cell
    · rw [equal]
      exact locals other ne
    · rw [elsewhere _ equal]

theorem Worked.inv (inv : domain.Inv) : domain'.Inv := by
  have passed := worked.passed
  have issued := worked.issued inv.cells
  have cellsInv := worked.cells
  obtain ⟨cells, rfl⟩ := worked.frame
  refine ⟨inv.graph, cellsInv, inv.slots.mono (Nat.le_refl _) issued rfl rfl rfl rfl rfl, ?_⟩
  · intro node subscription cancelled subscribed
    rcases inv.settled node subscription cancelled subscribed with registering | settled | debt
    · exact .inl registering
    · exact .inr (.inl (passed _ settled))
    · exact .inr (.inr debt)

omit worked in
/-- A selection is called, continues or has ended; when it ends, its generation has
passed. -/
theorem selectStep_worked {token : ParkToken} (inv : CellsInv domain.cells)
    (wait : token.wait = cell) (issued : token.generation ≤ (domain.cells cell).shared.issued)
    (ready : (∃ last, (domain.cells cell).locals thread = .rest last) ∨
      domain.Runs thread token cell)
    (taken : selectStep thread choice domain token cell = some (domain', pc)) :
    Worked thread domain cell domain' pc ∧
      ((∃ op stage, pc = .run op stage) ∧ domain'.Runs thread token cell ∨
        (∃ last, pc = .rest last) ∧ Passed domain'.cells token) := by
  have worked := waitStep_worked inv taken
  refine ⟨worked, ?_⟩
  have at_pc := worked.pc_eq
  rw [selectStep, waitStep, Option.map_eq_some_iff] at taken
  obtain ⟨⟨shared, next⟩, stepped, equal⟩ := taken
  cases equal
  obtain ⟨reachable, id⟩ := inv cell
  rcases ready with ⟨last, rests⟩ | ⟨stage, runs, selecting⟩
  · rw [rests, Wait.nextStep, if_pos nofun] at stepped
    cases stepped
    rw [Wait.Op.call, if_pos (by rintro _ ⟨⟩; rw [id, wait])] at at_pc ⊢
    exact .inl ⟨⟨_, _, rfl⟩, .load, at_pc, trivial⟩
  · obtain ⟨cellInv, locals⟩ := reachable_inv reachable
    have mine := locals thread
    rw [runs] at stepped mine
    have result := advanceStage_select cellInv thread _ mine issued selecting
      (Option.some.inj stepped)
    rcases result with ⟨stage', rfl, selecting'⟩ | ⟨rest, passed⟩
    · exact .inl ⟨⟨_, _, rfl⟩, stage', at_pc, by simpa using selecting'⟩
    · refine .inr ⟨rest, ?_⟩
      rw [Passed, wait]
      simpa using passed

omit [DecidableEq ι] [DecidableEq τ] [DecidableEq ρ] [DecidableEq η] worked in
/-- A step that leaves the cell alone claims nothing. -/
theorem not_claims {shared shared' : Wait.Shared ι τ ρ η} (same : shared'.cell = shared.cell)
    {generation : Nat} : ¬ Wait.Claims shared shared' generation := by
  rintro ⟨-, active, cause, claimed⟩
  rw [same, active] at claimed
  cases claimed

omit worked in
/-- A selection claims no generation but that of its token. -/
theorem selectStep_claims {token : ParkToken} (inv : CellsInv domain.cells)
    (wait : token.wait = cell)
    (ready : (∃ last, (domain.cells cell).locals thread = .rest last) ∨
      domain.Runs thread token cell)
    (taken : selectStep thread choice domain token cell = some (domain', pc))
    {other generation : Nat} (claims : Wait.Claims (domain.cells other).shared
      (domain'.cells other).shared generation) : token = ⟨other, generation⟩ := by
  have worked := waitStep_worked inv taken
  have same : other = cell := by
    by_contra ne
    exact not_claims (by rw [worked.elsewhere other ne]) claims
  subst same
  rw [selectStep, waitStep, Option.map_eq_some_iff] at taken
  obtain ⟨⟨shared, next⟩, stepped, equal⟩ := taken
  cases equal
  simp only [Function.update_self] at claims
  rcases ready with ⟨last, rests⟩ | ⟨stage, runs, -⟩
  · rw [rests, Wait.nextStep, if_pos nofun] at stepped
    cases stepped
    exact (not_claims rfl claims).elim
  · obtain ⟨-, locals⟩ := reachable_inv (inv other).1
    have tokens := (locals thread).fact
    rw [runs] at stepped tokens
    rcases advanceStage_token _ tokens.1 (Option.mem_some_self token) with kept | current
    · have shared_eq := congrArg Prod.fst (Option.some.inj stepped)
      exact (not_claims ((congrArg Wait.Shared.cell shared_eq).symm.trans kept) claims).elim
    · obtain ⟨at_generation, -⟩ := claims
      have generation_eq : token.generation = generation := current.symm.trans at_generation
      cases token
      cases wait
      cases generation_eq
      rfl

end Wait

end VThread.Inherited
