import Mathlib.Data.List.Nodup
import Mathlib.Data.Nat.Basic
import Mathlib.Logic.Function.Basic
import VThread.Lib.Ordered
import VThread.Lib.Transition
import VThread.Wait.Cell

/-!
# The readiness reactor

Waits on descriptors are entries of a shared table, by keys that are never used again.  One driver
keeps the registrations of the native poll in step with the table, and selects the wait of every
entry whose key the poll reports; callers register, drop their leases and stop the reactor.  Every
locked section and every selection is one step.
-/

namespace VThread.Readiness

open VThread.Lib
open VThread.Wait (ParkToken WakeCause)

/-- A registration: a descriptor with an interest, and the wait to select with its token. -/
structure Entry where
  fd : Nat
  interest : Nat
  token : ParkToken
  wake : Nat
  deriving DecidableEq

abbrev Entries := Ordered (Prod.fst : Nat × Entry → Nat)

/-- The keys with a registration in the poll. -/
abbrev Installed := Ordered (id : Nat → Nat)

/-- Why `register_owned` rejects an entry. -/
inductive Rejection where
  | readinessFailed
  | runtimeStopped
  | capacity (limit : Nat)
  | fault (message : String)
  deriving DecidableEq

/-- `Inner`, with its locked state. -/
structure Inner where
  entries : Entries
  next : Nat
  stopped : Bool
  error : Option String
  capacity : Nat
  registered : Nat

namespace Inner

def new (capacity : Nat) : Inner := ⟨.empty, 1, false, none, capacity, 0⟩

/-- The locked section of `register_owned`, and the key of the entry. -/
def register (inner : Inner) (entry : Entry) : Except Rejection (Inner × Nat) :=
  if inner.error.isSome then .error .readinessFailed
  else if inner.stopped then .error .runtimeStopped
  else if inner.entries.items.length = inner.capacity then .error (.capacity inner.capacity)
  else if inner.next + 1 < 2 ^ 64 then
    .ok ({ inner with
      entries := inner.entries.insert (inner.next, entry)
      next := inner.next + 1 }, inner.next)
  else .error (.fault "readiness identity exhausted")

def remove (inner : Inner) (key : Nat) : Inner × Option (Nat × Entry) :=
  ({ inner with entries := inner.entries.erase key }, inner.entries.find? key)

/-- The locked section of `close`, and the entries that it takes. -/
def close (inner : Inner) (error : Option String) : Inner × List (Nat × Entry) :=
  ({ inner with
      stopped := true
      error := inner.error.or error
      entries := .empty },
    inner.entries.items)

/-- `check`: why the reactor takes no registrations. -/
def check (inner : Inner) : Option Rejection :=
  if inner.error.isSome then some .readinessFailed
  else if inner.stopped then some .runtimeStopped
  else none

/-- `cleanup_complete`, by whether the driver was joined. -/
def cleanupComplete (inner : Inner) (joined : Bool) : Bool :=
  joined && inner.entries.items.isEmpty && inner.registered == 0

variable {inner inner' : Inner} {entry : Entry} {key : Nat}

/-- An accepted entry finds a running reactor with room, and has the next key. -/
theorem register_eq_ok (accepts : inner.register entry = .ok (inner', key)) :
    inner.error = none ∧ inner.stopped = false ∧
      inner.entries.items.length ≠ inner.capacity ∧ key = inner.next ∧
      inner' = { inner with
        entries := inner.entries.insert (inner.next, entry)
        next := inner.next + 1 } := by
  unfold register at accepts
  split at accepts
  · cases accepts
  · split at accepts
    · cases accepts
    · split at accepts
      · cases accepts
      · split at accepts
        · cases accepts
          rename_i failed stopped full _
          exact ⟨by simpa using failed, by simpa using stopped, full, rfl, rfl⟩
        · cases accepts

/-- A stopped reactor accepts nothing, for the reason that `check` gives. -/
theorem register_stopped (stopped : inner.stopped = true) :
    ∃ rejection, inner.register entry = .error rejection ∧ inner.check = some rejection := by
  rw [register, check, if_pos stopped, if_pos stopped]
  split
  · exact ⟨_, rfl, rfl⟩
  · exact ⟨_, rfl, rfl⟩

end Inner

/-! ## The table of installed registrations -/

/-- Delete registrations, unless the poll fails or has an error for one. -/
def deleteAll (fails : Nat → Option String) : List Nat → Installed → Except String Installed
  | [], installed => .ok installed
  | key :: removed, installed =>
      match installed.find? key with
      | none => .error "installed key"
      | some _ =>
          match fails key with
          | some error => .error error
          | none => deleteAll fails removed (installed.erase key)

/-- Register the entries that have no registration yet, unless the poll has an error for one. -/
def registerAll (fails : Nat → Option String) :
    List (Nat × Entry) → Installed → Except String Installed
  | [], installed => .ok installed
  | (key, _) :: entries, installed =>
      match installed.find? key with
      | some _ => registerAll fails entries installed
      | none =>
          match fails key with
          | some error => .error error
          | none => registerAll fails entries (installed.insert key)

/-- The registrations after a round of the driver. -/
def synchronise (deleteFails registerFails : Nat → Option String) (entries : Entries)
    (installed : Installed) : Except String Installed := do
  let removed := installed.items.filter fun key => (entries.find? key).isNone
  let kept ← deleteAll deleteFails removed installed
  registerAll registerFails entries.items kept

theorem mem_deleteAll {fails : Nat → Option String} {removed : List Nat}
    {installed kept : Installed} (deleted : deleteAll fails removed installed = .ok kept)
    (key : Nat) : key ∈ kept ↔ key ∈ installed ∧ key ∉ removed := by
  induction removed generalizing installed with
  | nil =>
      cases deleted
      simp
  | cons _ _ ih =>
      rw [deleteAll] at deleted
      split at deleted
      · cases deleted
      · split at deleted
        · cases deleted
        · rw [ih deleted, Ordered.mem_erase, List.mem_cons, not_or]
          exact and_assoc

theorem mem_registerAll {fails : Nat → Option String} {entries : List (Nat × Entry)}
    {kept installed : Installed} (registered : registerAll fails entries kept = .ok installed)
    (key : Nat) : key ∈ installed ↔ key ∈ kept ∨ key ∈ entries.map Prod.fst := by
  induction entries generalizing kept with
  | nil =>
      cases registered
      simp
  | cons _ _ ih =>
      rw [registerAll] at registered
      rw [List.map_cons, List.mem_cons]
      split at registered
      · rename_i found
        obtain ⟨member, rfl⟩ := Ordered.find?_eq_some.mp found
        rw [ih registered]
        constructor
        · rintro (before | later)
          · exact .inl before
          · exact .inr (.inr later)
        · rintro (before | rfl | later)
          · exact .inl before
          · exact .inl member
          · exact .inr later
      · rename_i absent
        split at registered
        · cases registered
        · rw [ih registered, Ordered.mem_insert]
          constructor
          · rintro ((same | ⟨before, -⟩) | later)
            · exact .inr (.inl same)
            · exact .inl before
            · exact .inr (.inr later)
          · rintro (before | same | later)
            · exact .inl (.inr ⟨before, Ordered.find?_eq_none.mp absent key before⟩)
            · exact .inl (.inl same)
            · exact .inr later

/-- After a round, the entries of the table are registered and nothing else. -/
theorem synchronise_items {deleteFails registerFails : Nat → Option String} {entries : Entries}
    {installed installed' : Installed}
    (synchronised : synchronise deleteFails registerFails entries installed = .ok installed') :
    installed'.items = entries.items.map Prod.fst := by
  rw [synchronise] at synchronised
  cases deleted : deleteAll deleteFails
      (installed.items.filter fun key => (entries.find? key).isNone) installed with
  | error error =>
      rw [deleted] at synchronised
      cases synchronised
  | ok kept =>
      rw [deleted] at synchronised
      have keys : installed'.items.map id = entries.items.map Prod.fst := by
        refine Ordered.keys_eq fun key => ?_
        rw [List.map_id, Ordered.mem_items, mem_registerAll synchronised, mem_deleteAll deleted]
        constructor
        · rintro (⟨member, stays⟩ | present)
          · -- a registration is kept only for a key of the table
            rw [List.mem_filter, not_and] at stays
            cases found : entries.find? key with
            | none =>
                rw [found] at stays
                exact absurd Option.isNone_none (stays member)
            | some item =>
                obtain ⟨present, rfl⟩ := Ordered.find?_eq_some.mp found
                exact List.mem_map_of_mem present
          · exact present
        · exact .inr
      rwa [List.map_id] at keys

/-! ## Steps -/

/-- A call of `select_ready` or `select_closed`. -/
structure Selection where
  key : Nat
  token : ParkToken
  wake : Nat
  cause : WakeCause
  deriving DecidableEq

def Entry.select (entry : Entry) (key : Nat) (cause : WakeCause) : Selection :=
  ⟨key, entry.token, entry.wake, cause⟩

/-- What removed an entry: its event, its lease, or a close by a caller or by the driver. -/
inductive Removal (ι : Type) where
  | event
  | lease
  | close (caller : Option ι)
  deriving DecidableEq

/-- An event of the poll: its key, and whether it has any readiness. -/
structure Event where
  key : Nat
  ready : Bool
  deriving DecidableEq

/-- Where the driver is.  Between rounds it synchronises; it delivers the events that it waited for
and selects the wait of a removed entry.  An error closes the reactor before the driver exits; of a
stopped one it takes nothing. -/
inductive Driver where
  | synchronising
  | waiting
  | delivering (events : List Event) (recovery : Option String)
  | selecting (key : Nat) (entry : Entry) (events : List Event) (recovery : Option String)
  | closing (error : String)
  | closed (taken : List (Nat × Entry))
  | exited
  deriving DecidableEq

/-- Where a caller is.  It wakes the driver after it registered or dropped an entry, and closes the
reactor where it cannot; a registration that fails so drops its lease. -/
inductive Call where
  | idle (rejection : Option Rejection)
  | waking (key : Nat)
  | dropping (key : Nat)
  | dropped
  | closing (error : Option String) (lease : Option Nat)
  | closed (taken : List (Nat × Entry)) (lease : Option Nat)
  deriving DecidableEq

/-- The reactor, its driver and its callers.  What was accepted, told to the poll and
reported by it, removed and selected so far is kept beside. -/
structure State (ι : Type) where
  inner : Inner
  installed : Installed
  driver : Driver
  calls : ι → Call
  leases : List Nat
  accepted : List (Nat × Entry)
  known : List (Nat × Entry)
  reported : List Event
  removals : List (Nat × Removal ι)
  selections : List Selection

/-- How `poll.wait` returns. -/
inductive Waited where
  | interrupted
  | failed (error : String)
  | events (events : List Event) (recovery : Option String)

/-- A step of a caller, or of the driver with what the poll does. -/
inductive Choice (ι : Type) where
  | register (caller : ι) (entry : Entry)
  | wake (caller : ι) (fails : Bool)
  | drop (caller : ι) (key : Nat)
  | stop (caller : ι)
  | advance (caller : ι)
  | synchronise (deleteFails registerFails : Nat → Option String)
  | wait (result : Waited)
  | drive
  | panic (message : String)

variable {ι : Type} [DecidableEq ι]

namespace State

def moved (state : State ι) (caller : ι) (call : Call) : State ι :=
  { state with calls := Function.update state.calls caller call }

/-- An entry leaves the table, if it is still there. -/
def taken (state : State ι) (key : Nat) (removal : Removal ι) : State ι :=
  { state with
    inner := (state.inner.remove key).1
    removals :=
      match (state.inner.remove key).2 with
      | none => state.removals
      | some _ => (key, removal) :: state.removals }

/-- All entries leave the table. -/
def closed (state : State ι) (error : Option String) (caller : Option ι) : State ι :=
  { state with
    inner := (state.inner.close error).1
    removals := (state.inner.close error).2.map (fun entry => (entry.1, .close caller)) ++
      state.removals }

def selected (state : State ι) (selection : Selection) : State ι :=
  { state with selections := selection :: state.selections }

def register (state : State ι) (caller : ι) (entry : Entry) : State ι :=
  match state.inner.register entry with
  | .error rejection => state.moved caller (.idle (some rejection))
  | .ok (inner, key) =>
      { state with inner, accepted := (key, entry) :: state.accepted }.moved caller (.waking key)

/-- The next step of a caller that needs nothing from outside. -/
def advance (state : State ι) (caller : ι) : Option (State ι) :=
  match state.calls caller with
  | .dropping key =>
      match (state.inner.remove key).2 with
      | none => some ((state.taken key .lease).moved caller (.idle none))
      | some _ => some ((state.taken key .lease).moved caller .dropped)
  | .closing error lease =>
      some ((state.closed error (some caller)).moved caller
        (.closed (state.inner.close error).2 lease))
  | .closed ((key, entry) :: rest) lease =>
      some ((state.selected (entry.select key .closed)).moved caller (.closed rest lease))
  | .closed [] (some key) => some (state.moved caller (.dropping key))
  | .closed [] none => some (state.moved caller (.idle none))
  | _ => none

/-- A caller wakes the driver. -/
def wake (state : State ι) (caller : ι) (fails : Bool) : Option (State ι) :=
  match state.calls caller with
  | .waking key =>
      if fails then
        some (state.moved caller (.closing (some "readiness wake failed") (some key)))
      else some ({ state with leases := key :: state.leases }.moved caller (.idle none))
  | .dropped =>
      if fails then some (state.moved caller (.closing (some "readiness wake failed") none))
      else some (state.moved caller (.idle none))
  | _ => none

/-- The locked section of a round. -/
def synchronised (state : State ι) (deleteFails registerFails : Nat → Option String) :
    State ι :=
  if state.inner.stopped then { state with driver := .closed [] }
  else
    match synchronise deleteFails registerFails state.inner.entries state.installed with
    | .error error => { state with driver := .closing error }
    | .ok installed =>
        { state with
          driver := .waiting
          installed
          inner := { state.inner with registered := installed.items.length }
          known := state.inner.entries.items ++ state.known }

/-- The poll reports only keys that were registered with it, or the key of its waker. -/
def Reports (state : State ι) (events : List Event) : Prop :=
  ∀ event ∈ events, event.key = 0 ∨ ∃ entry, (event.key, entry) ∈ state.known

/-- The next step of the driver that needs nothing from the poll. -/
def drive (state : State ι) : Option (State ι) :=
  match state.driver with
  | .delivering [] none => some { state with driver := .synchronising }
  | .delivering [] (some error) => some { state with driver := .closing error }
  | .delivering (event :: events) recovery =>
      if event.ready then
        match (state.inner.remove event.key).2 with
        | none =>
            some { state.taken event.key .event with driver := .delivering events recovery }
        | some (key, entry) =>
            some { state.taken event.key .event with
              driver := .selecting key entry events recovery }
      else some { state with driver := .delivering events recovery }
  | .selecting key entry events recovery =>
      some { state.selected (entry.select key .ready) with
        driver := .delivering events recovery }
  | .closing error =>
      some { state.closed (some error) none with
        driver := .closed (state.inner.close (some error)).2 }
  | .closed ((key, entry) :: rest) =>
      some { state.selected (entry.select key .closed) with driver := .closed rest }
  | .closed [] =>
      some { state with driver := .exited, inner := { state.inner with registered := 0 } }
  | _ => none

end State

/-- The steps of the reactor. -/
inductive Step (state : State ι) : Choice ι → State ι → Prop where
  | register {caller : ι} {rejection : Option Rejection} (entry : Entry) :
      state.calls caller = .idle rejection →
      Step state (.register caller entry) (state.register caller entry)
  | wake {caller : ι} {fails : Bool} {state' : State ι} :
      state.wake caller fails = some state' → Step state (.wake caller fails) state'
  | drop {caller : ι} {rejection : Option Rejection} {key : Nat} :
      state.calls caller = .idle rejection → key ∈ state.leases →
      Step state (.drop caller key)
        ({ state with leases := state.leases.erase key }.moved caller (.dropping key))
  | stop {caller : ι} {rejection : Option Rejection} : state.calls caller = .idle rejection →
      Step state (.stop caller) (state.moved caller (.closing none none))
  | advance {caller : ι} {state' : State ι} : state.advance caller = some state' →
      Step state (.advance caller) state'
  | synchronise (deleteFails registerFails : Nat → Option String) :
      state.driver = .synchronising →
      Step state (.synchronise deleteFails registerFails)
        (state.synchronised deleteFails registerFails)
  | interrupted : state.driver = .waiting →
      Step state (.wait .interrupted) { state with driver := .synchronising }
  | failed (error : String) : state.driver = .waiting →
      Step state (.wait (.failed error)) { state with driver := .closing error }
  | events {events : List Event} (recovery : Option String) : state.driver = .waiting →
      state.Reports events →
      Step state (.wait (.events events recovery))
        { state with
          driver := .delivering events recovery
          reported := events ++ state.reported }
  | drive {state' : State ι} : state.drive = some state' → Step state .drive state'
  | panic (message : String) : state.driver = .synchronising ∨ state.driver = .waiting ∨
      (∃ events recovery, state.driver = .delivering events recovery) →
      Step state (.panic message) { state with driver := .closing message }

/-- Every run of a reactor. -/
def system (ι : Type) [DecidableEq ι] : System (State ι) where
  initial state := ∃ capacity,
    state = ⟨.new capacity, .empty, .synchronising, fun _ => .idle none, [], [], [], [], [], []⟩
  step state state' := ∃ choice, Step state choice state'

end VThread.Readiness
