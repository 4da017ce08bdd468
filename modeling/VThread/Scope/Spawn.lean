import VThread.Carrier.Local
import VThread.Scope.Registry

/-!
# Borrowed spawns

`LocalScope::spawn_with` charges the admission, the load of the carrier, the stack pool, the
registry of fibers and the records of the scope in turn, and one guard takes back what has been
charged when it stops.  A panic of a destructor is caught by its owner and changes nothing here.
-/

namespace VThread.Scope

open VThread.Carrier

variable {ι : Type}

inductive SpawnError where
  | interrupted
  | carrierQueue
  | admission (error : AdmissionError)
  | stackAllocation
  | panicked
  deriving DecidableEq, Repr

/-! ## Leases and stacks -/

/-- A `FiberLease`: the closure that its unstarted fiber holds, and its stack. -/
structure Lease where
  id : Nat
  entry : Option Nat
  stack : Nat
  live : Bool
  deriving DecidableEq

/-- The `Registry` of a `FiberScope`. -/
structure FiberScope where
  leases : List Lease
  capacity : Nat
  closed : Bool
  nextLease : Nat
  fresh : ∀ lease ∈ leases, lease.id < nextLease

/-- A `StackPool`, by the identities of its mappings. -/
structure StackPool where
  cached : List Nat
  nextIdentity : Nat
  live : List Nat
  deriving DecidableEq

/-- `acquire_identified`; `allocates` tells whether a new stack can be mapped. -/
def StackPool.acquire (pool : StackPool) (allocates : Bool) : Option (Nat × StackPool) :=
  match pool.cached with
  | identity :: cached => some (identity, { pool with cached })
  | [] =>
      if allocates && pool.nextIdentity + 1 < 2 ^ 64 then
        some (pool.nextIdentity, { pool with
          nextIdentity := pool.nextIdentity + 1
          live := pool.nextIdentity :: pool.live })
      else none

def StackPool.retire (pool : StackPool) (identity : Nat) : StackPool :=
  { pool with live := pool.live.erase identity }

namespace FiberScope

/-- The leases that `spawn` and `drain` still look at. -/
def retain (fibers : FiberScope) : FiberScope where
  leases := fibers.leases.filter (·.live)
  capacity := fibers.capacity
  closed := fibers.closed
  nextLease := fibers.nextLease
  fresh lease member := fibers.fresh lease (List.mem_filter.mp member).1

def push (fibers : FiberScope) (entry stack : Nat) : FiberScope where
  leases := fibers.leases ++ [⟨fibers.nextLease, some entry, stack, true⟩]
  capacity := fibers.capacity
  closed := fibers.closed
  nextLease := fibers.nextLease + 1
  fresh lease member := by
    rcases List.mem_append.mp member with old | new
    · exact Nat.lt_succ_of_lt (fibers.fresh lease old)
    · rw [List.mem_singleton.mp new]
      exact Nat.lt_succ_self _

/-- `FiberScope::spawn`; `fits` tells whether the closure fits on its stack. -/
def spawn (fibers : FiberScope) (fits : Bool) (entry stack : Nat) :
    FiberScope × Except SpawnError Nat :=
  let fibers := fibers.retain
  if fibers.closed = true ∨ fibers.capacity ≤ fibers.leases.length then
    (fibers, .error .stackAllocation)
  else if fits = false then (fibers, .error .panicked)
  else (fibers.push entry stack, .ok fibers.nextLease)

/-- The lease is revoked and its fiber dropped. -/
def revoke (fibers : FiberScope) (id : Nat) : FiberScope where
  leases := fibers.leases.map fun lease =>
    if lease.id = id then { lease with entry := none, live := false } else lease
  capacity := fibers.capacity
  closed := fibers.closed
  nextLease := fibers.nextLease
  fresh lease member := by
    obtain ⟨old, kept, rfl⟩ := List.mem_map.mp member
    have below := fibers.fresh old kept
    split <;> exact below

end FiberScope

/-! ## The call -/

/-- Where a panic stops the call after the fiber is registered. -/
inductive Point where
  /-- The context of the child is built. -/
  | context
  /-- The cleanup mount is installed. -/
  | mounted
  /-- The record is listed. -/
  | listed
  deriving DecidableEq

/-- A call, with what it finds outside of the modelled state. -/
structure Attempt where
  /-- The closure of the child. -/
  entry : Nat
  /-- The checks of the task and of the scope pass. -/
  permitted : Bool
  /-- The name is valid. -/
  named : Bool
  /-- The options pass the check under the lock. -/
  admitted : Bool
  /-- The inbox of the carrier is stopped. -/
  stopped : Bool
  allocates : Bool
  /-- The closure fits on its stack. -/
  fits : Bool
  panics : Option Point
  deriving DecidableEq

/-- A `LocalScope` on its carrier, with the closures that were destroyed and those that ran. -/
structure LocalScope (ι : Type) where
  shared : Shared ι
  carrier : ι
  root : Nat
  locals : LocalCarrier
  pool : StackPool
  fibers : FiberScope
  records : List Nat
  destroyed : List Nat
  entered : List Nat

/-- A `LocalAdmissionRollback` that is armed. -/
structure Rollback where
  record : Nat
  fiber : Option Nat
  listed : Bool
  stack : Option Nat
  deriving DecidableEq

namespace LocalScope

def destroy (scope : LocalScope ι) (entry : Nat) : LocalScope ι :=
  { scope with destroyed := scope.destroyed ++ [entry] }

/-- `FiberLease::reclaim`, whose fiber has not been started. -/
def reclaim (scope : LocalScope ι) (lease : Nat) : LocalScope ι :=
  match scope.fibers.leases.find? (·.id = lease) with
  | some found =>
      { scope with
        fibers := scope.fibers.revoke lease
        destroyed := scope.destroyed ++ found.entry.toList }
  | none => scope

/-- Only observed terminal records leave the list, and the new one comes to its end. -/
def list (scope : LocalScope ι) (record : Nat) : LocalScope ι :=
  { scope with records := scope.records.filter (!scope.shared.reclaimable ·) ++ [record] }

variable [DecidableEq ι]

/-- The guard is dropped. -/
def rollback (scope : LocalScope ι) (guard : Rollback) : LocalScope ι :=
  let scope := match guard.fiber with
    | some lease => scope.reclaim lease
    | none => scope
  let scope := match guard.stack with
    | some identity => { scope with pool := scope.pool.retire identity }
    | none => scope
  let scope := if guard.listed then
      { scope with records := scope.records.filter (· ≠ guard.record) }
    else scope
  { scope with shared := scope.shared.releaseReservation guard.record }

/-- The request of the child. -/
def request (scope : LocalScope ι) (attempt : Attempt) : Request ι where
  scope := scope.root
  borrowed := true
  named := attempt.named
  permitted := attempt.admitted
  owner := if attempt.stopped then none else some scope.carrier

/-- The part of the call after the registration of the fiber. -/
def commit (scope : LocalScope ι) (attempt : Attempt) (guard : Rollback) :
    LocalScope ι × Except SpawnError Nat :=
  if attempt.panics = some .context ∨ attempt.panics = some .mounted then
    (scope.rollback guard, .error .panicked)
  else
    let scope := scope.list guard.record
    let guard := { guard with listed := true }
    if attempt.panics = some .listed then (scope.rollback guard, .error .panicked)
    else
      ({ scope with
        locals := scope.locals.pushStart ⟨guard.record, scope.root⟩
        shared := scope.shared.editTask guard.record fun record =>
          { record with stage := .accepted } },
        .ok guard.record)

/-- The part of the call after the admission. -/
def construct (scope : LocalScope ι) (attempt : Attempt) (record : Nat) :
    LocalScope ι × Except SpawnError Nat :=
  let guard : Rollback := ⟨record, none, false, none⟩
  match scope.pool.acquire attempt.allocates with
  | none => ((scope.rollback guard).destroy attempt.entry, .error .stackAllocation)
  | some (identity, pool) =>
      let scope := { scope with pool }
      let guard := { guard with stack := some identity }
      let spawned := scope.fibers.spawn attempt.fits attempt.entry identity
      let scope := { scope with fibers := spawned.1 }
      match spawned.2 with
      -- A closure that is not registered has been destroyed there.
      | .error error => ((scope.destroy attempt.entry).rollback guard, .error error)
      | .ok lease => scope.commit attempt { guard with fiber := some lease }

/-- `spawn_with`. -/
def spawnWith (scope : LocalScope ι) (attempt : Attempt) :
    LocalScope ι × Except SpawnError Nat :=
  if attempt.permitted = false then (scope.destroy attempt.entry, .error .interrupted)
  else if scope.locals.checkCapacity = false then
    (scope.destroy attempt.entry, .error .carrierQueue)
  else
    let reserved := scope.shared.reserve (scope.request attempt)
    let scope := { scope with shared := reserved.1 }
    match reserved.2 with
    | .error error => (scope.destroy attempt.entry, .error (.admission error))
    | .ok record => scope.construct attempt record

end LocalScope

/-! ## What a call leaves behind -/

/-- A count of records is the one before, or at the limit what the eviction leaves. -/
def Retained (before : Shared ι) (count : Nat) : Prop :=
  count = before.recordCount ∨
    before.maxVthreads ≤ before.recordCount ∧ count = before.evict.recordCount

/-- A call has failed and left nothing. -/
structure Undone (before after : LocalScope ι) (entry : Nat) : Prop where
  destroyed : after.destroyed = before.destroyed ++ [entry]
  entered : after.entered = before.entered
  locals : after.locals = before.locals
  leases : ∀ lease ∈ after.fibers.leases, lease.live = true → lease ∈ before.fibers.leases
  records : ∀ record ∈ after.records, record ∈ before.records
  recordCount : Retained before.shared after.shared.recordCount
  loads : after.shared.loads = before.shared.loads
  admitted : after.shared.admittedOf before.root = before.shared.admittedOf before.root

/-- A call has queued one start and counted one task. -/
structure Spawned [DecidableEq ι] (before after : LocalScope ι) (entry record : Nat) : Prop where
  destroyed : after.destroyed = before.destroyed
  entered : after.entered = before.entered
  starts : after.locals.starts = before.locals.starts ++ [⟨record, before.root⟩]
  lease : ∃ lease ∈ after.fibers.leases, lease.live = true ∧ lease.entry = some entry ∧
    ∀ other ∈ after.fibers.leases, other = lease ∨ other ∈ before.fibers.leases
  records : ∀ listed ∈ after.records, listed = record ∨ listed ∈ before.records
  listed : record ∈ after.records
  recordCount : ∃ count, Retained before.shared count ∧ after.shared.recordCount = count + 1
  loads : after.shared.loads = Function.update before.shared.loads before.carrier
    (before.shared.loads before.carrier + 1)
  admitted : after.shared.admittedOf before.root =
    (before.shared.admittedOf before.root).map (· + 1)
  owner : (after.shared.tasks record).carrier = before.carrier ∧
    (after.shared.tasks record).scope = before.root

theorem retained_evict (before : Shared ι) : Retained before before.evict.recordCount := by
  by_cases full : before.maxVthreads ≤ before.recordCount
  · exact .inr ⟨full, rfl⟩
  · refine .inl ?_
    unfold Shared.evict
    rw [if_neg full]

namespace LocalScope

/-! ## The guard -/

/-- A closure is refused, or it comes to the end of the registry. -/
theorem spawn_cases (fibers : FiberScope) (fits : Bool) (entry stack : Nat) :
    (∃ error, fibers.spawn fits entry stack = (fibers.retain, .error error)) ∨
      fibers.spawn fits entry stack =
        (fibers.retain.push entry stack, .ok fibers.retain.nextLease) := by
  unfold FiberScope.spawn
  dsimp only
  split
  · exact .inl ⟨_, rfl⟩
  · split
    · exact .inl ⟨_, rfl⟩
    · exact .inr rfl

/-- A new lease is found under its id. -/
theorem find_push (fibers : FiberScope) (entry stack : Nat) :
    (fibers.push entry stack).leases.find? (·.id = fibers.nextLease) =
      some ⟨fibers.nextLease, some entry, stack, true⟩ := by
  unfold FiberScope.push
  rw [List.find?_append, List.find?_eq_none.mpr, Option.none_or, List.find?_singleton]
  · simp
  · intro lease member
    simpa using (fibers.fresh lease member).ne

/-- Revoking a new lease leaves the old ones. -/
theorem revoke_push (fibers : FiberScope) (entry stack : Nat) :
    ∀ lease ∈ ((fibers.push entry stack).revoke fibers.nextLease).leases, lease.live = true →
      lease ∈ fibers.leases := by
  intro lease member live
  obtain ⟨old, kept, rfl⟩ := List.mem_map.mp member
  rcases List.mem_append.mp kept with kept | new
  · have other : old.id ≠ fibers.nextLease := (fibers.fresh old kept).ne
    rw [if_neg other]
    exact kept
  · rw [List.mem_singleton.mp new] at live
    simp at live

theorem reclaim_keeps (scope : LocalScope ι) (lease : Nat) :
    (scope.reclaim lease).shared = scope.shared ∧ (scope.reclaim lease).locals = scope.locals ∧
      (scope.reclaim lease).records = scope.records ∧
        (scope.reclaim lease).entered = scope.entered := by
  unfold reclaim
  split <;> exact ⟨rfl, rfl, rfl, rfl⟩

variable [DecidableEq ι] (scope : LocalScope ι) (guard : Rollback)

theorem rollback_shared :
    (scope.rollback guard).shared = scope.shared.releaseReservation guard.record := by
  unfold rollback
  cases guard.fiber with
  | none => cases guard.stack <;> cases guard.listed <;> rfl
  | some lease =>
      have kept := (scope.reclaim_keeps lease).1
      cases guard.stack <;> cases guard.listed <;> simp [kept]

theorem rollback_locals :
    (scope.rollback guard).locals = scope.locals ∧
      (scope.rollback guard).entered = scope.entered := by
  unfold rollback
  cases guard.fiber with
  | none => cases guard.stack <;> cases guard.listed <;> exact ⟨rfl, rfl⟩
  | some lease =>
      obtain ⟨-, locals, -, entered⟩ := scope.reclaim_keeps lease
      cases guard.stack <;> cases guard.listed <;> exact ⟨locals, entered⟩

theorem rollback_records :
    (scope.rollback guard).records =
      if guard.listed then scope.records.filter (· ≠ guard.record) else scope.records := by
  unfold rollback
  cases guard.fiber with
  | none => cases guard.stack <;> cases guard.listed <;> rfl
  | some lease =>
      have kept := (scope.reclaim_keeps lease).2.2.1
      cases guard.stack <;> cases guard.listed <;> simp [kept]

theorem rollback_fibers :
    (scope.rollback guard).fibers =
        (match guard.fiber with
          | some lease => (scope.reclaim lease).fibers
          | none => scope.fibers) ∧
      (scope.rollback guard).destroyed =
        (match guard.fiber with
          | some lease => (scope.reclaim lease).destroyed
          | none => scope.destroyed) := by
  unfold rollback
  cases guard.fiber <;> cases guard.stack <;> cases guard.listed <;> exact ⟨rfl, rfl⟩

/-! ## Failure and success -/

variable {scope guard}

/-- The guard undoes a call that has been admitted. -/
theorem undone {before : LocalScope ι} {entry : Nat}
    (shared : scope.shared = before.shared.evict.admitTask before.root before.carrier)
    (record : guard.record = before.shared.evict.nextTask)
    (locals : scope.locals = before.locals) (entered : scope.entered = before.entered)
    (records : ∀ listed ∈ scope.records,
      listed ∈ before.records ∨ guard.listed = true ∧ listed = guard.record)
    (leases : ∀ lease ∈ (scope.rollback guard).fibers.leases, lease.live = true →
      lease ∈ before.fibers.leases)
    (destroyed : (scope.rollback guard).destroyed = before.destroyed ++ [entry]) :
    Undone before (scope.rollback guard) entry := by
  obtain ⟨count, loads, admitted⟩ :=
    before.shared.evict.release_admit before.root before.carrier
  obtain ⟨evictedAdmitted, evictedLoads, -, -⟩ := before.shared.evict_keeps before.root
  have released : (scope.rollback guard).shared = (before.shared.evict.admitTask before.root
      before.carrier).releaseReservation before.shared.evict.nextTask := by
    rw [rollback_shared, shared, record]
  refine ⟨destroyed, (rollback_locals scope guard).2.trans entered,
    (rollback_locals scope guard).1.trans locals, leases, ?_, ?_, ?_, ?_⟩
  · intro listed member
    rw [rollback_records] at member
    cases isListed : guard.listed with
    | false =>
        rw [isListed, if_neg Bool.false_ne_true] at member
        rcases records listed member with old | ⟨wrong, -⟩
        · exact old
        · rw [isListed] at wrong
          cases wrong
    | true =>
        rw [isListed, if_pos rfl] at member
        obtain ⟨member, differs⟩ := List.mem_filter.mp member
        rcases records listed member with old | ⟨-, own⟩
        · exact old
        · exact absurd own (by simpa using differs)
  · rw [released, count]
    exact retained_evict before.shared
  · rw [released, loads, evictedLoads]
  · rw [released, admitted, evictedAdmitted]

/-- The part of the call after the registration of the fiber is all or nothing. -/
theorem commit_atomic {before : LocalScope ι} {attempt : Attempt} {fibers : FiberScope}
    {stack : Nat} {guard : Rollback}
    (shared : scope.shared = before.shared.evict.admitTask before.root before.carrier)
    (record : guard.record = before.shared.evict.nextTask)
    (same : scope.locals = before.locals ∧ scope.entered = before.entered ∧
      scope.records = before.records ∧ scope.destroyed = before.destroyed ∧
        scope.root = before.root)
    (registered : scope.fibers = fibers.push attempt.entry stack)
    (older : ∀ lease ∈ fibers.leases, lease ∈ before.fibers.leases)
    (lease : guard.fiber = some fibers.nextLease) (unlisted : guard.listed = false) :
    (∃ error, (scope.commit attempt guard).2 = .error error ∧
      Undone before (scope.commit attempt guard).1 attempt.entry) ∨
      (scope.commit attempt guard).2 = .ok guard.record ∧
        Spawned before (scope.commit attempt guard).1 attempt.entry guard.record := by
  obtain ⟨locals, entered, records, destroyed, root⟩ := same
  -- The guard finds the lease wherever the call stops.
  have reclaimed : ∀ listed (state : LocalScope ι), state.fibers = scope.fibers →
      state.destroyed = scope.destroyed →
      (∀ lease ∈ (state.rollback { guard with listed }).fibers.leases, lease.live = true →
        lease ∈ before.fibers.leases) ∧
      (state.rollback { guard with listed }).destroyed = before.destroyed ++ [attempt.entry] := by
    intro listed state sameFibers sameDestroyed
    obtain ⟨fibersLeft, destroyedLeft⟩ := rollback_fibers state { guard with listed }
    have found := find_push fibers attempt.entry stack
    rw [fibersLeft, destroyedLeft]
    simp only [lease, reclaim, sameFibers, sameDestroyed, registered, found, destroyed,
      Option.toList]
    exact ⟨fun lease member live => older lease (revoke_push fibers _ _ lease member live),
      trivial⟩
  have early := reclaimed false scope rfl rfl
  have plain : { guard with listed := false } = guard := by
    rw [← unlisted]
  rw [plain] at early
  unfold commit
  split
  · refine .inl ⟨_, rfl, undone shared record locals entered ?_ early.1 early.2⟩
    intro listed member
    exact .inl (records ▸ member)
  · have listing : ∀ listed ∈ (scope.list guard.record).records,
        listed ∈ before.records ∨ true = true ∧ listed = guard.record := by
      intro listed member
      rcases List.mem_append.mp member with old | new
      · exact .inl (records ▸ (List.mem_filter.mp old).1)
      · exact .inr ⟨rfl, List.mem_singleton.mp new⟩
    dsimp only
    split
    · have late := reclaimed true (scope.list guard.record) rfl rfl
      exact .inl ⟨_, rfl, undone shared record locals entered listing late.1 late.2⟩
    · refine .inr ⟨rfl, ?_⟩
      obtain ⟨evictedAdmitted, evictedLoads, -, -⟩ := before.shared.evict_keeps before.root
      have newest : (before.shared.evict.admitTask before.root before.carrier).tasks guard.record =
          ⟨before.root, before.carrier, .active, none, false, false, false, .reserved⟩ := by
        rw [record]
        exact Function.update_self _ _ _
      constructor
      · exact destroyed
      · exact entered
      · simp [LocalCarrier.pushStart, list, locals, root]
      · refine ⟨⟨fibers.nextLease, some attempt.entry, stack, true⟩, ?_, rfl, rfl, ?_⟩
        · simp [list, registered, FiberScope.push]
        · intro other member
          have among : other ∈ (fibers.push attempt.entry stack).leases := registered ▸ member
          rcases List.mem_append.mp among with old | new
          · exact .inr (older other old)
          · exact .inl (List.mem_singleton.mp new)
      · intro listed member
        exact (listing listed member).symm.imp_left And.right
      · exact List.mem_append_right _ (List.mem_singleton_self _)
      · refine ⟨before.shared.evict.recordCount, retained_evict before.shared, ?_⟩
        exact congrArg Shared.recordCount shared
      · refine (congrArg Shared.loads shared).trans ?_
        rw [Shared.admitTask, evictedLoads]
      · refine (congrArg (Shared.admittedOf · before.root) shared).trans ?_
        rw [Shared.admittedOf_admit, evictedAdmitted]
      · have edited : (scope.shared.editTask guard.record fun record =>
            { record with stage := .accepted }).tasks guard.record =
              { scope.shared.tasks guard.record with stage := .accepted } :=
          Function.update_self _ _ _
        unfold list
        dsimp only
        rw [edited, shared, newest]
        exact ⟨rfl, rfl⟩

/-- The call after the admission is all or nothing. -/
theorem construct_atomic {before : LocalScope ι} {attempt : Attempt} {record : Nat}
    (whole : scope = { before with
      shared := before.shared.evict.admitTask before.root before.carrier })
    (isNext : record = before.shared.evict.nextTask) :
    (∃ error, (scope.construct attempt record).2 = .error error ∧
      Undone before (scope.construct attempt record).1 attempt.entry) ∨
      (scope.construct attempt record).2 = .ok record ∧
        Spawned before (scope.construct attempt record).1 attempt.entry record := by
  unfold construct
  dsimp only
  split
  · refine .inl ⟨_, rfl, ?_⟩
    have failed : Undone before ((scope.destroy attempt.entry).rollback ⟨record, none, false, none⟩)
        attempt.entry := by
      rw [whole]
      exact undone rfl isNext rfl rfl (fun _ => .inl) (fun _ member _ => member) rfl
    exact failed
  · rename_i identity pool _
    have older : ∀ lease ∈ scope.fibers.retain.leases, lease ∈ before.fibers.leases := by
      rw [whole]
      exact fun lease member => (List.mem_filter.mp member).1
    -- The closure was destroyed by the registry.
    have refused : Undone before ((({ scope with pool, fibers := scope.fibers.retain } :
        LocalScope ι).destroy attempt.entry).rollback ⟨record, none, false, some identity⟩)
        attempt.entry := by
      refine undone (by rw [whole]; rfl) isNext (by rw [whole]; rfl) (by rw [whole]; rfl) ?_ ?_
        (by rw [whole]; rfl)
      · rw [whole]
        exact fun _ => .inl
      · exact fun lease member _ => older lease member
    rcases spawn_cases scope.fibers attempt.fits attempt.entry identity with
      ⟨error, spawned⟩ | spawned
    · simp only [spawned]
      exact .inl ⟨_, rfl, refused⟩
    · simp only [spawned]
      exact commit_atomic (by rw [whole]) isNext (by rw [whole]; exact ⟨rfl, rfl, rfl, rfl, rfl⟩)
        rfl older rfl rfl

/-- A borrowed spawn leaves nothing of a child that it does not start. -/
theorem spawn_atomic (before : LocalScope ι) (attempt : Attempt) :
    (∃ error, (before.spawnWith attempt).2 = .error error ∧
      Undone before (before.spawnWith attempt).1 attempt.entry) ∨
      ∃ record, (before.spawnWith attempt).2 = .ok record ∧
        Spawned before (before.spawnWith attempt).1 attempt.entry record := by
  have untouched : Undone before (before.destroy attempt.entry) attempt.entry :=
    ⟨rfl, rfl, rfl, fun _ member _ => member, fun _ => id, .inl rfl, rfl, rfl⟩
  unfold spawnWith
  split
  · exact .inl ⟨_, rfl, untouched⟩
  · split
    · exact .inl ⟨_, rfl, untouched⟩
    · obtain ⟨evictedAdmitted, evictedLoads, nextTask, -⟩ := before.shared.evict_keeps before.root
      rcases before.shared.reserve_cases (before.request attempt) with
        ⟨error, reserved | reserved⟩ | ⟨owner, chosen, reserved⟩
      · simp only [reserved]
        exact .inl ⟨_, rfl, untouched⟩
      · simp only [reserved]
        exact .inl ⟨_, rfl, rfl, rfl, rfl, fun _ member _ => member, fun _ => id,
          retained_evict before.shared, evictedLoads, evictedAdmitted⟩
      · simp only [reserved]
        have isCarrier : owner = before.carrier := by
          unfold request at chosen
          dsimp only at chosen
          split at chosen
          · cases chosen
          · exact (Option.some.inj chosen).symm
        rw [isCarrier]
        exact (construct_atomic rfl nextTask.symm).imp_right fun found => ⟨_, found⟩

/-- A call that fails at the limit keeps what the admission has reclaimed: two records, one of
them of an observed terminal task, and no room for a third. -/
theorem spawn_reclaims : ∃ (before : LocalScope Unit) (attempt : Attempt) (error : SpawnError),
    (before.spawnWith attempt).2 = .error error ∧
      (before.spawnWith attempt).1.shared.recordCount ≠ before.shared.recordCount := by
  let request : Request Unit := ⟨0, true, true, true, some ()⟩
  let shared : Shared Unit := ((Shared.new 2).beginOwned.reserve request).1
  let full : Shared Unit := (shared.reserve request).1.editTask 1 fun record =>
    { record with status := .completed, outcomeObserved := true }
  refine ⟨⟨full, (), 0, .new 8, ⟨[], 1, []⟩, ⟨[], 8, false, 0, by simp⟩, [1], [], []⟩,
    ⟨0, true, true, true, false, false, true, none⟩, .stackAllocation, ?_, ?_⟩
  · rfl
  · have left : Shared.recordCount full = 2 := rfl
    rw [left]
    decide

end LocalScope

end VThread.Scope
