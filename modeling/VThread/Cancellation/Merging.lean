import VThread.Cancellation.Reference

/-!
# The work loop

The iterations of `normalize` one by one, without a bound on their number: they end, none
of them fails, and the relays that one of them merges have the same live ancestry although
other signatures may still mention the removed token.
-/

namespace VThread.Cancellation

open VThread.Lib

variable {ω ν : Type}

namespace Graph

/-- One iteration: the smallest queued identity leaves the queue and is served. -/
def Serves (before after : Graph ω × Pending) : Prop :=
  ∃ id state rest, before.2.popFirst = some (id, state, rest) ∧
    before.1.normalizeStep id state rest = .ok after

/-- The iteration from `before` finds an equivalent relay in the graph `compared` and
merges `remove` into `keep`. -/
inductive Merges (before : Graph ω × Pending) : Graph ω → Nat → Nat → Prop where
  | pair {id other : Nat} {state : SignatureState} {rest rest' : Pending} {entry : Entry ω}
      {compared : Graph ω} : before.2.popFirst = some (id, state, rest) →
      before.1.nodes id = some entry → entry.kind = .relay →
      ¬ (entry.parents.len ≤ 1 ∨ entry.children.len ≤ 1) →
      (if state = .dirty then before.1.refreshSignature id rest else pure (before.1, rest)) =
        .ok (compared, rest') →
      compared.equivalentRelay id = .ok (some other) →
      Merges before compared (if id < other then id else other)
        (if id < other then other else id)

/-! ## The invariant of an iteration -/

/-- A state of the loop after the removal of `gone`. -/
structure InLoop (gone : Nat) (state : Graph ω × Pending) : Prop where
  normalizing : state.1.Normalizing state.2 gone
  dead : ¬ state.1.IsToken gone

/-- The bound on the iterations that remain. -/
noncomputable def iterationsLeft (gone : Nat) (state : Graph ω × Pending) : Nat :=
  state.1.weight gone * (state.1.next + 1) + state.2.ids.card

namespace InLoop

variable {gone : Nat} {before after : Graph ω × Pending}

/-- A queued identity can be served. -/
theorem serves (inv : InLoop gone before) {id : Nat} {state : SignatureState}
    {rest : Pending} (popped : before.2.popFirst = some (id, state, rest)) :
    ∃ after, Serves before after := by
  obtain ⟨graph', after', stepped, -⟩ :=
    normalizeStep_spec inv.normalizing inv.dead (Pending.popFirst_eq_some popped)
  exact ⟨(graph', after'), id, state, rest, popped, stepped⟩

/-- An iteration keeps the invariant and lowers the bound. -/
theorem step (inv : InLoop gone before) (serves : Serves before after) :
    InLoop gone after ∧ iterationsLeft gone after < iterationsLeft gone before := by
  obtain ⟨id, state, rest, popped, stepped⟩ := serves
  have isPopped := Pending.popFirst_eq_some popped
  obtain ⟨graph', after', stepped', progress⟩ :=
    normalizeStep_spec inv.normalizing inv.dead isPopped
  rw [stepped] at stepped'
  cases stepped'
  refine ⟨⟨progress.normalizing, by rw [progress.same.isToken]; exact inv.dead⟩, ?_⟩
  have nextEq := progress.same.next_eq
  have cardEq := isPopped.card
  simp only [iterationsLeft]
  rcases progress.smaller with ⟨sameGraph, samePending⟩ | smaller
  · rw [sameGraph, samePending]
    omega
  · have card := progress.normalizing.card_le
    rw [nextEq] at card ⊢
    have product := Nat.mul_le_mul_right (before.1.next + 1) (Nat.succ_le_of_lt smaller)
    rw [Nat.succ_mul] at product
    omega

theorem run (inv : InLoop gone before) (runs : Relation.ReflTransGen Serves before after) :
    InLoop gone after := by
  induction runs with
  | refl => exact inv
  | tail _ serves ih => exact (ih.step serves).1

/-- No run of iterations is infinite. -/
theorem terminates (inv : InLoop gone before) :
    Acc (fun after before : Graph ω × Pending => Serves before after) before := by
  induction bound : iterationsLeft gone before using Nat.strong_induction_on
    generalizing before with
  | h bound' ih =>
      subst bound
      refine Acc.intro before fun after serves => ?_
      obtain ⟨inv', smaller⟩ := inv.step serves
      exact ih _ smaller inv' rfl

/-- A merge joins relays below the same live tokens. -/
theorem sameAncestry (inv : InLoop gone before) {compared : Graph ω} {keep remove : Nat}
    (merges : Merges before compared keep remove) {source : Nat}
    (token : compared.IsToken source) :
    compared.Reach source keep ↔ compared.Reach source remove := by
  obtain @⟨id, other, state, rest, rest', entry, _, popped, found, relay, wide, refreshed,
    searched⟩ := merges
  obtain ⟨graph₁, after₁, before₁, refreshed', inv₁, popped₁, same₁, relay₁, -⟩ :=
    compared_spec inv.normalizing inv.dead (Pending.popFirst_eq_some popped)
      ⟨entry, found, relay⟩
  rw [refreshed] at refreshed'
  cases refreshed'
  have dead₁ : ¬ compared.IsToken gone := by
    rw [same₁.isToken]
    exact inv.dead
  obtain ⟨result, searched', -, someOf⟩ := equivalentRelay_spec inv₁.wf relay₁
  rw [searched] at searched'
  cases searched'
  obtain ⟨otherRelay, -, equivalent⟩ := someOf other rfl
  have clean : gone ∉ compared.ancestry id :=
    inv₁.not_mentions dead₁ popped₁ le_rfl fun _ isDirty => by cases isDirty
  have same := inv₁.sameSources relay₁ otherRelay clean equivalent token
  split
  · exact same
  · exact same.symm

end InLoop

/-- What the loop returns is the state in which it stops. -/
theorem normalizeLoop_run (fuel : Nat) {graph result : Graph ω} {pending : Pending}
    (looped : normalizeLoop fuel graph pending = .ok result) :
    ∃ drained : Pending, drained.popFirst = none ∧
      Relation.ReflTransGen Serves (graph, pending) (result, drained) := by
  induction fuel generalizing graph pending with
  | zero =>
      rw [normalizeLoop] at looped
      cases popped : pending.popFirst with
      | none =>
          rw [popped] at looped
          cases looped
          exact ⟨pending, popped, .refl⟩
      | some item =>
          rw [popped] at looped
          cases looped
  | succ fuel ih =>
      rw [normalizeLoop] at looped
      cases popped : pending.popFirst with
      | none =>
          rw [popped] at looped
          cases looped
          exact ⟨pending, popped, .refl⟩
      | some item =>
          obtain ⟨id, state, rest⟩ := item
          rw [popped] at looped
          obtain ⟨⟨graph', pending'⟩, stepped, looped⟩ := bind_eq_ok.1 looped
          obtain ⟨drained, empty, runs⟩ := ih looped
          exact ⟨drained, empty, .head ⟨id, state, rest, popped, stepped⟩ runs⟩

end Graph

namespace World

open Cancellation.Graph

/-- The graph and the work that a removal or a cancellation of a live token hands to
`normalize`. -/
inductive Hands (world : World ω) : Graph ω → List RelayWork → Prop where
  | remove {id : Nat} {graph : Graph ω} {work : List RelayWork} : id ∈ world.live →
      world.graph.prepareRemove id = .ok (graph, some work) → Hands world graph work
  | cancel {ν : Type} {id : Nat} {upgrade : ω → Option ν} {graph : Graph ω}
      {work : List RelayWork} {cancelled : List ν} : id ∈ world.live →
      world.graph.prepareCancel upgrade id = .ok ((graph, work), cancelled) →
      Hands world graph work

theorem Hands.inLoop {world : World ω} (reachable : Reachable ν world) {graph : Graph ω}
    {work : List RelayWork} (hands : Hands world graph work) :
    ∃ gone, InLoop gone (graph, Pending.empty.enqueueAll work) := by
  have agrees := reachable.agrees
  cases hands with
  | @remove id _ _ live prepareOk =>
      obtain ⟨graph', work', prepareOk', prepared⟩ :=
        prepareRemove_spec agrees.settled ((agrees.live_iff id).1 live)
      rw [prepareOk] at prepareOk'
      cases prepareOk'
      exact ⟨id, prepared.normalizing work rfl, by simp [prepared.forgets.isToken]⟩
  | @cancel ν id upgrade _ _ _ live prepareOk =>
      obtain ⟨marked, work', prepareOk', -, -, normalizing, dead⟩ :=
        prepareCancel_spec agrees.settled upgrade ((agrees.live_iff id).1 live)
      rw [prepareOk] at prepareOk'
      cases prepareOk'
      exact ⟨world.graph.next, normalizing, dead⟩

/-- Whatever a removal or a cancellation hands over, the work loop ends without a failure,
the result has no two relays with the same signature and flag and only exact signatures,
and every merge on the way joins relays with the same live ancestry. -/
theorem relay_normalization {world : World ω} (reachable : Reachable ν world)
    {graph : Graph ω} {work : List RelayWork} (hands : Hands world graph work) :
    Acc (fun after before : Graph ω × Pending => Serves before after)
        (graph, Pending.empty.enqueueAll work) ∧
      (∃ result drained, graph.normalize work = .ok result ∧
        Relation.ReflTransGen Serves (graph, Pending.empty.enqueueAll work)
          (result, drained) ∧ drained.popFirst = none) ∧
      ∀ state, Relation.ReflTransGen Serves (graph, Pending.empty.enqueueAll work) state →
        (state.2.popFirst = none ∧
            (∀ left right, state.1.IsRelay left → state.1.IsRelay right → left ≠ right →
              ¬ state.1.Equivalent left right) ∧
            (∀ id, state.1.IsRelay id → state.1.Consistent id) ∨
          ∃ next, Serves state next) ∧
        ∀ compared keep remove, Merges state compared keep remove →
          ∀ source, compared.IsToken source →
            (compared.Reach source keep ↔ compared.Reach source remove) := by
  obtain ⟨gone, inv⟩ := hands.inLoop reachable
  refine ⟨inv.terminates, ?_, ?_⟩
  · obtain ⟨result, normalized, -⟩ := normalize_spec inv.normalizing inv.dead
    obtain ⟨drained, empty, runs⟩ := normalizeLoop_run _ normalized
    exact ⟨result, drained, normalized, runs, empty⟩
  · intro state runs
    have inv := inv.run runs
    refine ⟨?_, fun compared keep remove merges source token =>
      inv.sameAncestry merges token⟩
    cases popped : state.2.popFirst with
    | none =>
        have settled := inv.normalizing.settled inv.dead (Pending.popFirst_eq_none popped)
        exact .inl ⟨rfl, settled.distinct, settled.consistent⟩
    | some item =>
        obtain ⟨id, queued, rest⟩ := item
        exact .inr (inv.serves popped)

/-- The removal of a wide token hands its relay and its children over; the loop ends, and the
relay stays. -/
theorem relay_normalization_relay :
    ∃ (world : World Nat) (graph result : Graph Nat) (work : List RelayWork),
      Reachable Nat world ∧ world.live = {4, 3, 2, 1, 0} ∧ Hands world graph work ∧
        work = [.known 2, .dirty 3, .dirty 4] ∧
        Acc (fun after before : Graph Nat × Pending => Serves before after)
          (graph, Pending.empty.enqueueAll work) ∧
        graph.normalize work = .ok result ∧ result.relays = 1 ∧ result.IsRelay 2 := by
  obtain ⟨world, reachable, live, wide⟩ := wide_reachable
  obtain ⟨graph, signature, prepared, relayed⟩ := wide.prepareRemove
  have hands := Hands.remove (show 2 ∈ world.live by simp [live]) prepared
  have terminates := (relay_normalization reachable hands).1
  exact ⟨world, graph, graph, _, reachable, live, hands, rfl, terminates, relayed.normalize,
    relayed.relays_eq, ⟨_, relayed.middle, rfl⟩⟩

end World

end VThread.Cancellation
