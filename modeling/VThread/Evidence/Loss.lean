import VThread.Evidence.Conservation

/-!
# Reports of loss

The first dropped sequence and the end of the runtime are published after the fact, by the
record calls themselves.  They are right when no drop overtakes a smaller one on its way to the
marker and the last event finds room.
-/

namespace VThread.Evidence

open VThread.Lib

variable {ι : Type}

/-- `first_dropped` of a snapshot. -/
def Status.firstDroppedSequence (status : Status) : Option Nat :=
  if status.firstDropped = noDroppedSequence then none else some status.firstDropped

/-- What a snapshot tells about loss. -/
structure Reports (stream : Stream ι) : Prop where
  none_iff : stream.status.firstDroppedSequence = none ↔
    ∀ call ∈ stream.calls, call.2 ∈ stream.sent
  least : ∀ sequence, stream.status.firstDroppedSequence = some sequence →
    (∃ call ∈ stream.calls, call.2 ∉ stream.sent ∧ call.2.sequence = sequence) ∧
      ∀ call ∈ stream.calls, call.2.sequence < sequence → call.2 ∈ stream.sent
  terminal : (∃ call ∈ stream.calls, call.2.kind.terminal = true) →
    stream.status.runtimeTerminal = true

/-! ## Orderly runs -/

/-- A drop is not noted after one with a larger sequence, and the end of the runtime is not
refused. -/
def Orderly (state : Threads (Party ι) (Stream ι) Pc) (party : Party ι) : Prop :=
  match state.locals party with
  | .noting sequence => state.shared.status.firstDropped = noDroppedSequence ∨
      state.shared.status.firstDropped < sequence
  | .raised event => event.kind.terminal = true → state.shared.hasRoom = true
  | _ => True

instance (state : Threads (Party ι) (Stream ι) Pc) (party : Party ι) :
    Decidable (Orderly state party) := by
  unfold Orderly
  split <;> infer_instance

/-- The sequence of a call whose event is neither sent nor noted. -/
def Pc.unnoted : Pc → Option Nat
  | .numbered event => some event.sequence
  | .raised event => some event.sequence
  | .refused sequence => some sequence
  | .dropping sequence => some sequence
  | .noting sequence => some sequence
  | _ => none

/-- The call reports the end of the runtime before it returns. -/
def Pc.ending (event : RuntimeEvent) : Pc → Prop
  | .numbered other => other = event
  | .raised other => other = event
  | .accepted other => other = event
  | .finishing => True
  | _ => False

/-- What the marker and the flag say while record calls are in progress. -/
structure Marked (stream : Stream ι) (locals : ι → Pc) : Prop where
  kept : ∀ call ∈ stream.calls, call.2 ∈ stream.sent ∨
    (locals call.1).unnoted = some call.2.sequence ∨
      stream.status.firstDropped ≤ call.2.sequence
  first : stream.status.firstDropped = noDroppedSequence ∨
    ∃ call ∈ stream.calls, call.2 ∉ stream.sent ∧ call.2.sequence = stream.status.firstDropped
  fresh : ∀ id sequence, (locals id).unnoted = some sequence →
    stream.status.firstDropped ≠ sequence
  terminal : ∀ call ∈ stream.calls, call.2.kind.terminal = true →
    stream.status.runtimeTerminal = true ∨ (locals call.1).ending call.2

/-! ## Steps -/

theorem recordStep_note {id : ι} {choice : Choice} {stream stream' : Stream ι} {sequence : Nat}
    {pc' : Pc} (taken : recordStep id choice stream (.noting sequence) = some (stream', pc')) :
    stream'.calls = stream.calls ∧ stream'.sent = stream.sent ∧
      stream'.status.runtimeTerminal = stream.status.runtimeTerminal ∧
      stream'.status.firstDropped = (if stream.status.firstDropped = noDroppedSequence then sequence
        else stream.status.firstDropped) ∧ pc' = .idle := by
  cases choice <;> cases taken
  exact ⟨rfl, rfl, rfl, rfl, rfl⟩

theorem recordStep_refuse {id : ι} {choice : Choice} {stream stream' : Stream ι}
    {event : RuntimeEvent} {sequence : Nat}
    (taken : recordStep id choice stream (.raised event) = some (stream', .refused sequence)) :
    ¬ stream.hasRoom = true := by
  cases choice with
  | go =>
      rw [recordStep] at taken
      split at taken
      · cases taken
      · assumption
  | record | drain | recvBatchTimeout | timeOut => cases taken

namespace Marked

variable {stream stream' : Stream ι} {locals : ι → Pc} {id : ι} {pc' : Pc}

theorem congr (marked : Marked stream locals) (calls : stream'.calls = stream.calls)
    (sent : stream'.sent = stream.sent)
    (first : stream'.status.firstDropped = stream.status.firstDropped)
    (terminal : stream'.status.runtimeTerminal = stream.status.runtimeTerminal) :
    Marked stream' locals := by
  refine ⟨?_, ?_, ?_, ?_⟩
  · rw [calls, sent, first]
    exact marked.kept
  · rw [calls, sent, first]
    exact marked.first
  · rw [first]
    exact marked.fresh
  · rw [calls, terminal]
    exact marked.terminal

variable [DecidableEq ι]

/-- A recorder moves on with its event. -/
theorem move (marked : Marked stream locals) (calls : stream'.calls = stream.calls)
    (sent : stream'.sent = stream.sent)
    (first : stream'.status.firstDropped = stream.status.firstDropped)
    (terminal : stream.status.runtimeTerminal = true → stream'.status.runtimeTerminal = true)
    (same : pc'.unnoted = (locals id).unnoted)
    (ending : ∀ event, event.kind.terminal = true → (locals id).ending event →
      stream'.status.runtimeTerminal = true ∨ pc'.ending event) :
    Marked stream' (fun other => if other = id then pc' else locals other) where
  kept := by
    rw [calls, sent, first]
    intro call member
    refine (marked.kept call member).imp_right (Or.imp_left fun unnoted => ?_)
    split
    · rename_i equal
      rw [same, ← equal, unnoted]
    · exact unnoted
  first := by
    rw [calls, sent, first]
    exact marked.first
  fresh other sequence unnoted := by
    rw [first]
    split at unnoted
    · exact marked.fresh id sequence (same ▸ unnoted)
    · exact marked.fresh other sequence unnoted
  terminal := by
    rw [calls]
    intro call member isTerminal
    rcases marked.terminal call member isTerminal with set | ends
    · exact .inl (terminal set)
    · split
      · rename_i equal
        exact ending call.2 isTerminal (equal ▸ ends)
      · exact .inr ends

/-- A recorder takes the next number. -/
theorem number (marked : Marked stream locals) (numbered : Numbered stream)
    (idle : locals id = .idle) (event : RuntimeEvent)
    (next : event.sequence = stream.status.nextSequence)
    (below : stream.status.nextSequence < maxWord)
    (calls : stream'.calls = stream.calls ++ [(id, event)]) (sent : stream'.sent = stream.sent)
    (first : stream'.status.firstDropped = stream.status.firstDropped)
    (terminal : stream'.status.runtimeTerminal = stream.status.runtimeTerminal) :
    Marked stream' (fun other => if other = id then .numbered event else locals other) where
  kept := by
    rw [calls, sent, first]
    intro call member
    rcases List.mem_append.mp member with member | member
    · refine (marked.kept call member).imp_right (Or.imp_left fun unnoted => ?_)
      split
      · rename_i equal
        rw [equal, idle] at unnoted
        cases unnoted
      · exact unnoted
    · rw [List.mem_singleton.mp member]
      exact .inr (.inl (by simp [Pc.unnoted]))
  first := by
    rw [calls, sent, first]
    exact marked.first.imp_right fun ⟨call, member, found⟩ =>
      ⟨call, List.mem_append_left _ member, found⟩
  fresh other sequence unnoted := by
    rw [first]
    split at unnoted
    · -- Noted sequences were handed out before.
      cases unnoted
      rw [next]
      rcases marked.first with unset | ⟨call, member, -, noted⟩
      · rw [unset]
        exact Nat.ne_of_gt below
      · have listed : call.2.sequence ∈ stream.calls.map (·.2.sequence) :=
          List.mem_map_of_mem member
        rw [numbered.numbers, List.mem_range, noted] at listed
        exact Nat.ne_of_lt listed
    · exact marked.fresh other sequence unnoted
  terminal := by
    rw [calls, terminal]
    intro call member isTerminal
    rcases List.mem_append.mp member with member | member
    · refine (marked.terminal call member isTerminal).imp_right fun ends => ?_
      split
      · rename_i equal
        rw [equal, idle] at ends
        exact ends.elim
      · exact ends
    · rw [List.mem_singleton.mp member]
      exact .inr (by simp [Pc.ending])

/-- The channel takes the event. -/
theorem send (marked : Marked stream locals) {event : RuntimeEvent}
    (here : locals id = .raised event) (calls : stream'.calls = stream.calls)
    (sent : stream'.sent = stream.sent ++ [event])
    (caller : ∀ call ∈ stream.calls, call.1 = id → call.2.sequence = event.sequence →
      call.2 = event)
    (first : stream'.status.firstDropped = stream.status.firstDropped)
    (terminal : stream'.status.runtimeTerminal = stream.status.runtimeTerminal) :
    Marked stream' (fun other => if other = id then .accepted event else locals other) where
  kept := by
    rw [calls, sent, first]
    intro call member
    rcases marked.kept call member with old | unnoted | noted
    · exact .inl (List.mem_append_left _ old)
    · by_cases equal : call.1 = id
      · rw [equal, here, Pc.unnoted, Option.some.injEq] at unnoted
        rw [caller call member equal unnoted.symm]
        exact .inl (List.mem_append_right _ (List.mem_singleton_self _))
      · rw [if_neg equal]
        exact .inr (.inl unnoted)
    · exact .inr (.inr noted)
  first := by
    rw [calls, sent, first]
    refine marked.first.imp_right ?_
    rintro ⟨call, member, unsent, noted⟩
    refine ⟨call, member, fun isSent => ?_, noted⟩
    rcases List.mem_append.mp isSent with old | new
    · exact unsent old
    · rw [List.mem_singleton.mp new] at noted
      exact marked.fresh id event.sequence (by rw [here]; rfl) noted.symm
  fresh other sequence unnoted := by
    rw [first]
    split at unnoted
    · cases unnoted
    · exact marked.fresh other sequence unnoted
  terminal := by
    rw [calls, terminal]
    intro call member isTerminal
    refine (marked.terminal call member isTerminal).imp_right fun ends => ?_
    split
    · rename_i equal
      rw [equal, here] at ends
      exact ends
    · exact ends

/-- The drop is noted, in order. -/
theorem note (marked : Marked stream locals) {sequence : Nat}
    (small : ∀ call ∈ stream.calls, call.2.sequence < maxWord)
    (here : locals id = .noting sequence) (calls : stream'.calls = stream.calls)
    (sent : stream'.sent = stream.sent)
    (mine : ∃ call ∈ stream.calls, call.2 ∉ stream.sent ∧ call.2.sequence = sequence)
    (apart : ∀ other, other ≠ id → (locals other).unnoted ≠ some sequence)
    (orderly : stream.status.firstDropped = noDroppedSequence ∨
      stream.status.firstDropped < sequence)
    (first : stream'.status.firstDropped =
      if stream.status.firstDropped = noDroppedSequence then sequence
      else stream.status.firstDropped)
    (terminal : stream'.status.runtimeTerminal = stream.status.runtimeTerminal) :
    Marked stream' (fun other => if other = id then .idle else locals other) where
  kept := by
    rw [calls, sent, first]
    intro call member
    rcases marked.kept call member with old | unnoted | noted
    · exact .inl old
    · by_cases equal : call.1 = id
      · rw [equal, here, Pc.unnoted, Option.some.injEq] at unnoted
        refine .inr (.inr ?_)
        split
        · exact Nat.le_of_eq unnoted
        · rename_i set
          exact unnoted ▸ Nat.le_of_lt (orderly.resolve_left set)
      · rw [if_neg equal]
        exact .inr (.inl unnoted)
    · refine .inr (.inr ?_)
      split
      · rename_i unset
        rw [unset] at noted
        exact absurd (small call member) (Nat.not_lt_of_le noted)
      · exact noted
  first := by
    rw [calls, sent, first]
    split
    · exact .inr mine
    · exact marked.first
  fresh other sequence' unnoted := by
    rw [first]
    split at unnoted
    · cases unnoted
    · rename_i different
      split
      · rintro rfl
        exact apart other different unnoted
      · exact marked.fresh other sequence' unnoted
  terminal := by
    rw [calls, terminal]
    intro call member isTerminal
    refine (marked.terminal call member isTerminal).imp_right fun ends => ?_
    split
    · rename_i equal
      rw [equal, here] at ends
      exact ends.elim
    · exact ends

end Marked

/-! ## Runs -/

theorem Mine.unnoted {id : ι} {stream : Stream ι} {pc : Pc} {sequence : Nat}
    (mine : Mine (.recorder id) stream pc) (unnoted : pc.unnoted = some sequence) :
    ∃ event, Unsent id event stream ∧ event.sequence = sequence := by
  cases pc with
  | numbered event | raised event =>
      cases unnoted
      exact ⟨event, mine, rfl⟩
  | refused other | dropping other | noting other =>
      cases unnoted
      obtain ⟨event, same, unsent⟩ := mine
      exact ⟨event, unsent, same⟩
  | _ => cases unnoted

variable [DecidableEq ι] {capacity : Nat}

theorem marked_record {id : ι} {choice : Choice} {state : Threads (Party ι) (Stream ι) Pc}
    {stream' : Stream ι} {pc' : Pc} (numbered : Numbered state.shared)
    (mine : ∀ party, Mine party state.shared (state.locals party))
    (marked : Marked state.shared fun id => state.locals (.recorder id))
    (orderly : Orderly state (.recorder id))
    (taken : recordStep id choice state.shared (state.locals (.recorder id)) =
      some (stream', pc')) :
    Marked stream' fun other => if other = id then pc' else state.locals (.recorder other) := by
  have small : ∀ call ∈ state.shared.calls, call.2.sequence < maxWord := by
    intro call member
    have listed : call.2.sequence ∈ state.shared.calls.map (·.2.sequence) :=
      List.mem_map_of_mem member
    rw [numbered.numbers, List.mem_range] at listed
    exact Nat.lt_of_lt_of_le listed numbered.fits
  have own := mine (.recorder id)
  have records := recordStep_records taken
  unfold Orderly at orderly
  cases here : state.locals (.recorder id) with
  | idle =>
      rw [here] at records
      cases records with
      | exhaust full =>
          refine marked.move rfl rfl rfl (fun set => set) (by rw [here]; rfl) fun event _ ends => ?_
          rw [here] at ends
          exact ends.elim
      | number _ _ below =>
          exact marked.number numbered here _ rfl below rfl rfl rfl rfl
  | numbered event =>
      rw [here] at records
      cases records with
      | raise =>
          refine marked.move rfl rfl rfl (fun set => set) (by rw [here]; rfl) fun other _ ends => ?_
          rw [here] at ends
          exact .inr ends
  | raised event =>
      rw [here] at records taken orderly own
      cases records with
      | send _ room =>
          refine marked.send here rfl rfl (fun call member equal same => ?_) rfl rfl
          exact (numbered.caller member own.called same).2
      | refuse =>
          refine marked.move rfl rfl rfl (fun set => set) (by rw [here]; rfl)
            fun other isTerminal ends => ?_
          rw [here] at ends
          cases ends
          exact absurd (orderly isTerminal) (recordStep_refuse taken)
  | accepted event =>
      rw [here] at records
      cases records with
      | count =>
          refine marked.move rfl rfl rfl (fun set => set) (by rw [here]; split <;> rfl)
            fun other isTerminal ends => ?_
          rw [here] at ends
          cases ends
          rw [if_pos isTerminal]
          exact .inr trivial
  | finishing =>
      rw [here] at records
      cases records with
      | finish =>
          exact marked.move rfl rfl rfl (fun _ => rfl) (by rw [here]; rfl) fun _ _ _ => .inl rfl
  | refused =>
      rw [here] at records
      cases records with
      | lower =>
          refine marked.move rfl rfl rfl (fun set => set) (by rw [here]; rfl) fun other _ ends => ?_
          rw [here] at ends
          exact ends.elim
  | dropping =>
      rw [here] at records
      cases records with
      | drop =>
          refine marked.move rfl rfl rfl (fun set => set) (by rw [here]; rfl) fun other _ ends => ?_
          rw [here] at ends
          exact ends.elim
  | noting =>
      rw [here] at taken orderly own
      obtain ⟨calls, sent, terminal, first, rfl⟩ := recordStep_note taken
      obtain ⟨event, same, unsent⟩ := own
      refine marked.note small here calls sent ⟨_, unsent.called, unsent.unsent, same⟩
        (fun other different unnoted => ?_) orderly first terminal
      obtain ⟨event', unsent', same'⟩ := (mine (.recorder other)).unnoted unnoted
      exact different (numbered.caller unsent'.called unsent.called (same'.trans same.symm)).1
  | exhausted | receiving | collecting | collected =>
      rw [here] at records
      cases records

omit [DecidableEq ι] in
theorem Consumes.marked {stream stream' : Stream ι} {pc pc' : Pc} {locals : ι → Pc}
    (taken : Consumes stream pc stream' pc') (marked : Marked stream locals) :
    Marked stream' locals := by
  cases taken <;> exact marked.congr rfl rfl rfl rfl

theorem reachable_marked {state : Threads (Party ι) (Stream ι) Pc}
    (reachable : ((program ι capacity).guarded Orderly).Reachable state) :
    Marked state.shared fun id => state.locals (.recorder id) := by
  induction reachable with
  | initial isInitial =>
      obtain ⟨fresh, started⟩ := isInitial
      rw [show _ = bounded capacity from fresh]
      refine ⟨by simp [bounded], .inl rfl, fun id sequence unnoted => ?_, by simp [bounded]⟩
      rw [started] at unnoted
      cases unnoted
  | @step state _ before taken ih =>
      obtain ⟨party, stream', pc', orderly, ⟨choice, taken⟩, rfl⟩ := taken
      obtain ⟨numbered, mine⟩ := reachable_numbered (Program.guarded_reachable before)
      cases party with
      | recorder id =>
          simpa using marked_record numbered mine ih orderly taken
      | consumer =>
          simpa using (consumeStep_consumes taken).marked ih

/-- In an orderly run the stream reports its loss and its end. -/
theorem loss_reported {state : Threads (Party ι) (Stream ι) Pc}
    (reachable : ((program ι capacity).guarded Orderly).Reachable state)
    (quiet : ∀ id, ¬ (state.locals (.recorder id)).inCall) : Reports state.shared := by
  have marked := reachable_marked reachable
  have numbered := (reachable_numbered (Program.guarded_reachable reachable)).1
  have kept : ∀ call ∈ state.shared.calls, call.2 ∈ state.shared.sent ∨
      state.shared.status.firstDropped ≤ call.2.sequence := by
    intro call member
    refine (marked.kept call member).imp_right (Or.resolve_left · fun unnoted => ?_)
    have rest := quiet call.1
    cases here : state.locals (.recorder call.1) <;> rw [here] at unnoted rest <;>
      first | exact rest trivial | cases unnoted
  refine ⟨⟨fun none call member => ?_, fun all => ?_⟩, fun sequence some => ?_, ?_⟩
  · have unset : state.shared.status.firstDropped = noDroppedSequence := by
      rw [Status.firstDroppedSequence] at none
      split at none
      · assumption
      · cases none
    refine (kept call member).resolve_right fun noted => ?_
    have listed : call.2.sequence ∈ state.shared.calls.map (·.2.sequence) :=
      List.mem_map_of_mem member
    rw [numbered.numbers, List.mem_range] at listed
    rw [unset] at noted
    exact absurd (Nat.lt_of_lt_of_le listed numbered.fits) (Nat.not_lt_of_le noted)
  · rcases marked.first with unset | ⟨call, member, unsent, -⟩
    · rw [Status.firstDroppedSequence, if_pos unset]
    · exact absurd (all call member) unsent
  · rw [Status.firstDroppedSequence] at some
    split at some
    · cases some
    · rename_i set
      cases some
      exact ⟨marked.first.resolve_left set, fun call member below =>
        (kept call member).resolve_right (Nat.not_le_of_lt below)⟩
  · rintro ⟨call, member, isTerminal⟩
    refine (marked.terminal call member isTerminal).resolve_right fun ends => ?_
    have rest := quiet call.1
    cases here : state.locals (.recorder call.1) <;> rw [here] at ends rest <;>
      first | exact rest trivial | exact ends.elim

/-! ## One event more than there is room for -/

/-- Two calls, of which the second is refused. -/
def refusedOne : Schedule :=
  ((.recorder false, .record 0 (.other 0)) :: List.replicate 3 (.recorder false, .go) : Schedule) ++
    ((.recorder true, .record 0 (.other 1)) :: List.replicate 5 (.recorder true, .go) : Schedule)

/-- A call with room, then an event that ends the runtime and is refused. -/
def lostEnd : Schedule :=
  ((.recorder false, .record 0 (.other 0)) :: List.replicate 3 (.recorder false, .go) : Schedule) ++
    ((.recorder false, .record 0 (.shutdownAdvanced .complete)) ::
      List.replicate 5 (.recorder false, .go) : Schedule)

/-- The smaller of two dropped sequences is noted last. -/
def overtaken : Schedule :=
  ((.recorder false, .record 0 (.other 0)) :: List.replicate 3 (.recorder false, .go) : Schedule) ++
    ([(.recorder false, .record 0 (.other 1)),
      (.recorder true, .record 0 (.other 2))] : Schedule) ++
    (List.replicate 5 (.recorder true, .go) : Schedule) ++
    (List.replicate 5 (.recorder false, .go) : Schedule)

/-- The first refused event is the one that is reported. -/
theorem loss_reported_one : ∃ state, ((program Bool 1).guarded Orderly).Reachable state ∧
    state.shared.status.firstDroppedSequence = some 1 ∧ Reports state.shared := by
  have runs : ((scheduler Bool 1).runGuarded Orderly refusedOne ⟨bounded 1, fun _ => .idle⟩).map
      (fun state => (state.shared.status.firstDroppedSequence, state.locals (.recorder false),
        state.locals (.recorder true))) = some (some 1, .idle, .idle) := by decide +kernel
  obtain ⟨state, run, view⟩ := Option.map_eq_some_iff.mp runs
  simp only [Prod.mk.injEq] at view
  obtain ⟨first, one, two⟩ := view
  have start : ((program Bool 1).guarded Orderly).Reachable ⟨bounded 1, fun _ => .idle⟩ :=
    .initial ⟨rfl, fun _ => rfl⟩
  have reachable := (scheduler Bool 1).runGuarded_reachable start run
  refine ⟨state, reachable, first, loss_reported reachable fun id => ?_⟩
  cases id
  · simp [one, Pc.inCall]
  · simp [two, Pc.inCall]

/-- A marker that is overtaken, and an end that is not reported. -/
theorem loss_misreported :
    (∃ state, (program Bool 1).system.Reachable state ∧
      (∀ id, ¬ (state.locals (.recorder id)).inCall) ∧
      state.shared.status.firstDroppedSequence = some 2 ∧
      ∃ call ∈ state.shared.calls, call.2 ∉ state.shared.sent ∧ call.2.sequence = 1) ∧
    ∃ state, (program Bool 1).system.Reachable state ∧
      (∀ id, ¬ (state.locals (.recorder id)).inCall) ∧
      (∃ call ∈ state.shared.calls, call.2.kind.terminal = true) ∧
      state.shared.status.runtimeTerminal = false := by
  have start : (program Bool 1).system.Reachable ⟨bounded 1, fun _ => .idle⟩ :=
    .initial ⟨rfl, fun _ => rfl⟩
  constructor
  · have runs : ((scheduler Bool 1).run overtaken ⟨bounded 1, fun _ => .idle⟩).map
        (fun state => (state.shared.status.firstDroppedSequence, state.shared.calls,
          state.shared.sent, state.locals (.recorder false), state.locals (.recorder true))) =
        some (some 2, [(false, ⟨0, 0, .other 0⟩), (false, ⟨1, 0, .other 1⟩),
          (true, ⟨2, 0, .other 2⟩)], [⟨0, 0, .other 0⟩], .idle, .idle) := by decide +kernel
    obtain ⟨state, run, view⟩ := Option.map_eq_some_iff.mp runs
    simp only [Prod.mk.injEq] at view
    obtain ⟨first, calls, sent, one, two⟩ := view
    refine ⟨state, (scheduler Bool 1).run_reachable start run, fun id => ?_, first, ?_⟩
    · cases id
      · simp [one, Pc.inCall]
      · simp [two, Pc.inCall]
    · exact ⟨(false, ⟨1, 0, .other 1⟩), by simp [calls], by simp [sent], rfl⟩
  · have runs : ((scheduler Bool 1).run lostEnd ⟨bounded 1, fun _ => .idle⟩).map
        (fun state => (state.shared.status.runtimeTerminal, state.shared.calls,
          state.locals (.recorder false), state.locals (.recorder true))) =
        some (false, [(false, ⟨0, 0, .other 0⟩), (false, ⟨1, 0, .shutdownAdvanced .complete⟩)],
          .idle, .idle) := by decide +kernel
    obtain ⟨state, run, view⟩ := Option.map_eq_some_iff.mp runs
    simp only [Prod.mk.injEq] at view
    obtain ⟨terminal, calls, one, two⟩ := view
    refine ⟨state, (scheduler Bool 1).run_reachable start run, fun id => ?_, ?_, terminal⟩
    · cases id
      · simp [one, Pc.inCall]
      · simp [two, Pc.inCall]
    · exact ⟨(false, ⟨1, 0, .shutdownAdvanced .complete⟩), by simp [calls], rfl⟩

end VThread.Evidence
