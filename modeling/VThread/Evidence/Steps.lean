import VThread.Lib.Census
import VThread.Evidence.Stream

/-!
# Steps of recorders and of the consumer

What each step does to the stream, and the counts of record calls that it exchanges.
-/

namespace VThread.Evidence

open VThread.Lib

variable {ι : Type}

/-! ## Every step -/

inductive Records (id : ι) (stream : Stream ι) : Pc → Stream ι → Pc → Prop where
  | exhaust : maxWord ≤ stream.status.nextSequence → Records id stream .idle stream .exhausted
  | number (runtime : Nat) (kind : RuntimeEventKind) : stream.status.nextSequence < maxWord →
      Records id stream .idle
        { stream with
          status := { stream.status with nextSequence := stream.status.nextSequence + 1 }
          calls := stream.calls ++ [(id, ⟨stream.status.nextSequence, runtime, kind⟩)] }
        (.numbered ⟨stream.status.nextSequence, runtime, kind⟩)
  | raise (event : RuntimeEvent) : Records id stream (.numbered event)
      { stream with
        status := { stream.status with pending := fetchAdd stream.status.pending 1 } }
      (.raised event)
  | send (event : RuntimeEvent) : stream.hasRoom → Records id stream (.raised event)
      { stream with channel := stream.channel ++ [event], sent := stream.sent ++ [event] }
      (.accepted event)
  | refuse (event : RuntimeEvent) : Records id stream (.raised event) stream
      (.refused event.sequence)
  | count (event : RuntimeEvent) : Records id stream (.accepted event)
      { stream with
        status := { stream.status with recorded := fetchAdd stream.status.recorded 1 } }
      (if event.kind.terminal then .finishing else .idle)
  | finish : Records id stream .finishing
      { stream with status := { stream.status with runtimeTerminal := true } } .idle
  | lower (sequence : Nat) : Records id stream (.refused sequence)
      { stream with
        status := { stream.status with pending := fetchSub stream.status.pending 1 } }
      (.dropping sequence)
  | drop (sequence : Nat) : Records id stream (.dropping sequence)
      { stream with
        status := { stream.status with dropped := fetchAdd stream.status.dropped 1 } }
      (.noting sequence)
  | note (sequence firstDropped : Nat) : Records id stream (.noting sequence)
      { stream with status := { stream.status with firstDropped := firstDropped } } .idle

theorem recordStep_records {id : ι} {choice : Choice} {stream stream' : Stream ι} {pc pc' : Pc}
    (taken : recordStep id choice stream pc = some (stream', pc')) :
    Records id stream pc stream' pc' := by
  cases pc with
  | idle =>
      cases choice with
      | record runtime kind =>
          by_cases below : stream.status.nextSequence < maxWord
          · simp only [recordStep, checkedNext, if_pos below] at taken
            cases taken
            exact .number runtime kind below
          · simp only [recordStep, checkedNext, if_neg below] at taken
            cases taken
            exact .exhaust (Nat.le_of_not_lt below)
      | drain | recvBatchTimeout | timeOut | go => cases taken
  | raised event =>
      cases choice with
      | go =>
          rw [recordStep] at taken
          split at taken
          · rename_i room
            cases taken
            exact .send event room
          · cases taken
            exact .refuse event
      | record | drain | recvBatchTimeout | timeOut => cases taken
  | numbered event =>
      cases choice <;> cases taken
      exact .raise event
  | accepted event =>
      cases choice <;> cases taken
      exact .count event
  | finishing =>
      cases choice <;> cases taken
      exact .finish
  | refused sequence =>
      cases choice <;> cases taken
      exact .lower sequence
  | dropping sequence =>
      cases choice <;> cases taken
      exact .drop sequence
  | noting sequence =>
      cases choice <;> cases taken
      exact .note sequence _
  | exhausted | receiving | collecting | collected => cases choice <;> cases taken

inductive Consumes (stream : Stream ι) : Pc → Stream ι → Pc → Prop where
  | drain : Consumes stream .idle stream (.collecting [])
  | wait : Consumes stream .idle { stream with receiving := true } .receiving
  | timeOut : Consumes stream .receiving { stream with receiving := false } .idle
  | first (event : RuntimeEvent) (rest : List RuntimeEvent) : stream.channel = event :: rest →
      Consumes stream .receiving { stream with channel := rest, receiving := false }
        (.collecting [event])
  | more (events : List RuntimeEvent) (event : RuntimeEvent) (rest : List RuntimeEvent) :
      events.length < stream.status.capacity → stream.channel = event :: rest →
      Consumes stream (.collecting events) { stream with channel := rest }
        (.collecting (events ++ [event]))
  | stop (events : List RuntimeEvent) :
      stream.status.capacity ≤ events.length ∨ stream.channel = [] →
      Consumes stream (.collecting events) stream (.collected events)
  | finish (events : List RuntimeEvent) : Consumes stream (.collected events)
      { stream with
        status :=
          { stream.status with pending := fetchSub stream.status.pending events.length }
        batches := stream.batches ++ [sortBySequence events] }
      .idle

theorem consumeStep_consumes {choice : Choice} {stream stream' : Stream ι} {pc pc' : Pc}
    (taken : consumeStep choice stream pc = some (stream', pc')) :
    Consumes stream pc stream' pc' := by
  cases pc with
  | idle =>
      cases choice <;> cases taken
      · exact .drain
      · exact .wait
  | receiving =>
      cases choice with
      | timeOut =>
          rw [consumeStep] at taken
          split at taken <;> cases taken
          exact .timeOut
      | go =>
          rw [consumeStep] at taken
          split at taken
          · cases taken
          · rename_i event rest head
            cases taken
            exact .first event rest head
      | record | drain | recvBatchTimeout => cases taken
  | collecting events =>
      cases choice with
      | go =>
          rw [consumeStep] at taken
          split at taken
          · rename_i below
            split at taken
            · rename_i empty
              cases taken
              exact .stop events (.inr empty)
            · rename_i event rest head
              cases taken
              exact .more events event rest below head
          · rename_i full
            cases taken
            exact .stop events (.inl (Nat.le_of_not_lt full))
      | record | drain | recvBatchTimeout | timeOut => cases taken
  | collected events =>
      cases choice <;> cases taken
      exact .finish events
  | numbered | raised | accepted | finishing | refused | dropping | noting | exhausted =>
      cases choice <;> cases taken

end VThread.Evidence
