import VThread.Cancellation.IdSet
import VThread.Cancellation.Signature

/-!
# Compressed cancellation graph

Callers serialize every transition.  A live token is a `token` entry.  Removing a
token splices narrow history away; wide history stays behind as a `relay`, and
relays with the same live ancestry and flag are merged.  Functions panic where the
source does; a map indexed at an absent key panics as well.

The work loops of the source run under a fuel that bounds their iterations; running
out of it is a panic of the model, which the specifications exclude.
-/

namespace VThread.Cancellation

variable {ω ν : Type}

/-- Entry kinds. -/
inductive Kind where
  | token
  | relay
  deriving DecidableEq, Repr

/-- One graph entry.  `ω` stands for the weak handle of a token's node. -/
structure Entry (ω : Type) where
  kind : Kind
  flag : Option ω
  cancelled : Bool
  parents : ParentSet
  children : IdSet
  signature : Signature

/-- The graph.  An absent relay-index candidate is the empty set of identities; the
source drops a candidate with its last identity. -/
structure Graph (ω : Type) where
  next : Nat
  relays : Nat
  nodes : Nat → Option (Entry ω)
  relayIndex : Candidate → Finset Nat

/-- Whether a queued relay must recompute its signature. -/
inductive SignatureState where
  | known
  | dirty
  deriving DecidableEq, Repr

/-- One normalization request. -/
structure RelayWork where
  id : Nat
  signature : SignatureState
  deriving DecidableEq, Repr

namespace RelayWork

def known (id : Nat) : RelayWork := ⟨id, .known⟩

def dirty (id : Nat) : RelayWork := ⟨id, .dirty⟩

end RelayWork

/-- The ordered work queue: requested identities, and those among them whose
signature is dirty. -/
structure Pending where
  ids : Finset Nat
  dirty : Finset Nat
  dirty_subset : dirty ⊆ ids

namespace Pending

def empty : Pending := ⟨∅, ∅, Finset.Subset.refl ∅⟩

/-- Queue a request; an identity once marked dirty stays dirty. -/
def enqueue (pending : Pending) (work : RelayWork) : Pending where
  ids := insert work.id pending.ids
  dirty := if work.signature = .dirty then insert work.id pending.dirty else pending.dirty
  dirty_subset := by
    split
    next => exact Finset.insert_subset_insert _ pending.dirty_subset
    next => exact pending.dirty_subset.trans (Finset.subset_insert _ _)

def enqueueAll (pending : Pending) (work : List RelayWork) : Pending :=
  work.foldl enqueue pending

/-- Take the smallest queued identity. -/
def popFirst (pending : Pending) : Option (Nat × SignatureState × Pending) :=
  if nonempty : pending.ids.Nonempty then
    let id := pending.ids.min' nonempty
    some (id, if id ∈ pending.dirty then .dirty else .known,
      ⟨pending.ids.erase id, pending.dirty.erase id,
        Finset.erase_subset_erase id pending.dirty_subset⟩)
  else none

end Pending

namespace Graph

/-- `Graph::default`. -/
def default : Graph ω := ⟨0, 0, fun _ => none, fun _ => ∅⟩

def missingKey : String := "no entry found for key"

/-- `nodes[&id]`. -/
def index (graph : Graph ω) (id : Nat) : Checked (Entry ω) := expect (graph.nodes id) missingKey

/-- `nodes.insert(id, entry)`. -/
def put (graph : Graph ω) (id : Nat) (entry : Entry ω) : Graph ω :=
  { graph with nodes := Function.update graph.nodes id (some entry) }

/-- `nodes.remove(&id)`, without its result. -/
def drop (graph : Graph ω) (id : Nat) : Graph ω :=
  { graph with nodes := Function.update graph.nodes id none }

/-- `nodes.get_mut(&id).expect(message)`, followed by an update in place. -/
def modify (graph : Graph ω) (id : Nat) (change : Entry ω → Entry ω) (message : String) :
    Checked (Graph ω) := do
  let entry ← expect (graph.nodes id) message
  pure (graph.put id (change entry))

def removeChild (graph : Graph ω) (parent child : Nat) : Checked (Graph ω) :=
  graph.modify parent (fun entry => { entry with children := entry.children.remove child })
    "live predecessor"

def removeParent (graph : Graph ω) (child parent : Nat) : Checked (Graph ω) :=
  graph.modify child (fun entry => { entry with parents := entry.parents.remove parent })
    "live descendant"

/-- `relays -= 1`. -/
def releaseRelay (graph : Graph ω) : Checked (Graph ω) := do
  ensure (0 < graph.relays) "attempt to subtract with overflow"
  pure { graph with relays := graph.relays - 1 }

def reserve (graph : Graph ω) : Checked (Nat × Graph ω) := do
  ensure (graph.next + 1 < 2 ^ 64) "cancellation identity exhausted"
  pure (graph.next, { graph with next := graph.next + 1 })

/-- Attach a new child to one live parent, accumulating the parent's flag. -/
def adopt (id : Nat) (state : Graph ω × Bool) (parent : Nat) : Checked (Graph ω × Bool) := do
  let entry ← expect (state.1.nodes parent) "live parent"
  pure (state.1.put parent { entry with children := (entry.children.insert id).1 },
    state.2 || entry.cancelled)

def insert (graph : Graph ω) (id : Nat) (parents : List Nat) (flag : ω) :
    Checked (Graph ω × Bool) := do
  ensure (id + 1 = graph.next) "cancellation identity not reserved"
  let (parents, graph, cancelled) ← match parents with
    | [] => pure (IdSet.empty, graph, false)
    | [parent] => do
        let (graph, cancelled) ← adopt id (graph, false) parent
        pure (IdSet.one parent, graph, cancelled)
    | parents => do
        let parents := IdSet.ofList parents
        let (graph, cancelled) ← parents.toList.foldlM (adopt id) (graph, false)
        pure (parents, graph, cancelled)
  pure (graph.put id
    { kind := .token, flag := some flag, cancelled, parents, children := .empty,
      signature := Signature.singleton id }, cancelled)

/-! ## Relay index -/

def signatureFor (graph : Graph ω) (parents : ParentSet) : Checked Signature :=
  parents.toList.foldlM (fun signature parent => do
    let entry ← graph.index parent
    pure (signature.union entry.signature)) Signature.default

def indexRelay (graph : Graph ω) (id : Nat) : Checked (Graph ω) := do
  let entry ← expect (graph.nodes id) "live relay"
  ensure (entry.kind = .relay) "only relays are indexed"
  let candidate := entry.signature.candidate
  pure { graph with
    relayIndex := Function.update graph.relayIndex candidate
      (Insert.insert id (graph.relayIndex candidate)) }

def unindexRelay (graph : Graph ω) (id : Nat) : Checked (Graph ω) := do
  let entry ← graph.index id
  let candidate := entry.signature.candidate
  ensure (graph.relayIndex candidate ≠ ∅) "indexed relay candidate"
  ensure (id ∈ graph.relayIndex candidate) "indexed relay identity"
  pure { graph with
    relayIndex := Function.update graph.relayIndex candidate
      ((graph.relayIndex candidate).erase id) }

/-- The first other relay with the same flag and the same signature. -/
def equivalentRelay (graph : Graph ω) (id : Nat) : Checked (Option Nat) :=
  match graph.nodes id with
  | none => pure none
  | some entry =>
      if entry.kind ≠ .relay then pure none
      else ((graph.relayIndex entry.signature.candidate).sort (· ≤ ·)).findM? fun other =>
        if other = id then pure false
        else do
          let otherEntry ← expect (graph.nodes other) "indexed relay"
          pure (decide (otherEntry.cancelled = entry.cancelled) &&
            entry.signature.sameSet otherEntry.signature)

/-! ## Rewrites -/

/-- Connect one parent to one child unless they are already connected. -/
def connect (graph : Graph ω) (parent child : Nat) : Checked (Graph ω) := do
  let entry ← expect (graph.nodes parent) "live predecessor"
  let (children, added) := entry.children.insert child
  let graph := graph.put parent { entry with children }
  if added then
    graph.modify child
      (fun entry => { entry with parents := (entry.parents.insert parent).1 })
      "live descendant"
  else pure graph

def splice (graph : Graph ω) (parents : ParentSet) (children : IdSet) :
    Checked (Graph ω) :=
  parents.toList.foldlM (fun graph parent =>
    children.toList.foldlM (fun graph child => graph.connect parent child) graph) graph

/-- Take an entry out of the index, the nodes and the counter. -/
def detach (graph : Graph ω) (id : Nat) : Checked (Entry ω × Graph ω) := do
  let indexed ← graph.index id
  let graph ← (if indexed.kind = .relay then graph.unindexRelay id else pure graph)
  let entry ← expect (graph.nodes id) "live graph entry"
  let graph := graph.drop id
  let graph ← (if entry.kind = .relay then graph.releaseRelay else pure graph)
  pure (entry, graph)

def erase (graph : Graph ω) (id : Nat) (splice descendantsDirty : Bool) :
    Checked (Graph ω × List RelayWork) := do
  let (entry, graph) ← graph.detach id
  let graph ← entry.parents.toList.foldlM (fun graph parent => graph.removeChild parent id) graph
  let graph ← entry.children.toList.foldlM (fun graph child => graph.removeParent child id) graph
  let graph ← (if splice then graph.splice entry.parents entry.children else pure graph)
  let children := entry.children.toList.map fun id =>
    if descendantsDirty then RelayWork.dirty id else RelayWork.known id
  pure (graph, entry.parents.toList.map RelayWork.known ++ children)

/-- Hand one child of a discarded relay to the retained one. -/
def rehome (keep remove : Nat) (graph : Graph ω) (child : Nat) : Checked (Graph ω) :=
  graph.modify child
    (fun entry => { entry with parents := ((entry.parents.remove remove).insert keep).1 })
    "live descendant"

def mergeRelays (graph : Graph ω) (keep remove : Nat) :
    Checked (Graph ω × List RelayWork) := do
  let retained ← graph.index keep
  let discarded ← graph.index remove
  ensure (retained.kind = .relay ∧ discarded.kind = .relay)
    "retained.kind == Kind::Relay && discarded.kind == Kind::Relay"
  ensure (retained.cancelled = discarded.cancelled) "assertion `left == right` failed"
  ensure (retained.signature.candidate = discarded.signature.candidate)
    "assertion `left == right` failed"
  let graph ← graph.unindexRelay remove
  let entry ← expect (graph.nodes remove) "duplicate relay"
  let graph := graph.drop remove
  let graph ← graph.releaseRelay
  let graph ← entry.parents.toList.foldlM
    (fun graph parent => graph.removeChild parent remove) graph
  let graph ← entry.children.toList.foldlM (rehome keep remove) graph
  let graph ← graph.modify keep
    (fun retained => { retained with children := retained.children.extendSet entry.children })
    "retained relay"
  pure (graph, (entry.parents.toList ++ entry.children.toList ++ [keep]).map RelayWork.known)

/-! ## Normalization -/

/-- Recompute a relay's signature; a change makes its children dirty. -/
def refreshSignature (graph : Graph ω) (id : Nat) (pending : Pending) :
    Checked (Graph ω × Pending) := do
  let entry ← graph.index id
  let signature ← graph.signatureFor entry.parents
  if entry.signature.sameSet signature then pure (graph, pending)
  else do
    let graph ← graph.unindexRelay id
    let graph ← graph.modify id (fun entry => { entry with signature }) "live relay"
    let graph ← graph.indexRelay id
    pure (graph, pending.enqueueAll (entry.children.toList.map RelayWork.dirty))

/-- One iteration of the work loop, after its identity left the queue. -/
def normalizeStep (graph : Graph ω) (id : Nat) (state : SignatureState)
    (pending : Pending) : Checked (Graph ω × Pending) :=
  match graph.nodes id with
  | none => pure (graph, pending)
  | some entry =>
      if entry.kind ≠ .relay then pure (graph, pending)
      else if entry.parents.len ≤ 1 ∨ entry.children.len ≤ 1 then do
        let (graph, affected) ← graph.erase id true (decide (state = .dirty))
        pure (graph, pending.enqueueAll affected)
      else do
        let (graph, pending) ← (if state = .dirty then graph.refreshSignature id pending
          else pure (graph, pending))
        match ← graph.equivalentRelay id with
        | none => pure (graph, pending)
        | some other =>
            let (keep, remove) := if id < other then (id, other) else (other, id)
            let (graph, affected) ← graph.mergeRelays keep remove
            pure (graph, pending.enqueueAll affected)

/-- Serve the queue until it is empty. -/
def normalizeLoop : Nat → Graph ω → Pending → Checked (Graph ω)
  | fuel, graph, pending =>
      match pending.popFirst with
      | none => pure graph
      | some (id, state, pending) =>
          match fuel with
          | 0 => .error "normalization exceeded its fuel"
          | fuel + 1 => do
              let (graph, pending) ← graph.normalizeStep id state pending
              normalizeLoop fuel graph pending

def normalizeFuel (graph : Graph ω) : Nat := (graph.next + 1) ^ 3

def normalize (graph : Graph ω) (initial : List RelayWork) : Checked (Graph ω) :=
  normalizeLoop graph.normalizeFuel graph (Pending.empty.enqueueAll initial)

/-! ## Token transitions -/

/-- Every parent is a live token. -/
def parentsAreTokens (graph : Graph ω) (parents : ParentSet) : Checked Bool :=
  parents.toList.allM fun parent => do
    let entry ← graph.index parent
    pure (decide (entry.kind = .token))

def anyCancelled (graph : Graph ω) (parents : ParentSet) : Checked Bool :=
  parents.toList.anyM fun parent => do
    let entry ← graph.index parent
    pure entry.cancelled

/-- The single token parent of a childless entry. -/
def directParent (graph : Graph ω) (entry : Entry ω) : Checked (Option Nat) :=
  match entry.children.isEmpty, entry.parents with
  | true, .one parent => do
      let parentEntry ← graph.index parent
      pure (if parentEntry.kind = .token then some parent else none)
  | _, _ => pure none

/-- A childless entry whose parents are all tokens. -/
def directLeaf (graph : Graph ω) (entry : Entry ω) : Checked Bool :=
  if entry.children.isEmpty then graph.parentsAreTokens entry.parents else pure false

/-- Take a childless entry out of the graph. -/
def takeLeaf (graph : Graph ω) (id : Nat) : Checked (Entry ω × Graph ω) := do
  let entry ← expect (graph.nodes id) "live cancellation leaf"
  ensure (entry.kind = .token) "token removed twice"
  pure (entry, graph.drop id)

def remove (graph : Graph ω) (id : Nat) : Checked (Graph ω) := do
  let entry ← graph.index id
  match ← graph.directParent entry with
  | some parent =>
      let (_, graph) ← graph.takeLeaf id
      graph.removeChild parent id
  | none =>
      if ← graph.directLeaf entry then
        let (entry, graph) ← graph.takeLeaf id
        entry.parents.toList.foldlM (fun graph parent => graph.removeChild parent id) graph
      else do
        let entry ← expect (graph.nodes id) "live cancellation node"
        ensure (entry.kind = .token) "token removed twice"
        let inherited ← graph.anyCancelled entry.parents
        if 1 < entry.parents.len ∧ 1 < entry.children.len then do
          let signature ← graph.signatureFor entry.parents
          let graph ← graph.modify id (fun entry =>
            { entry with kind := .relay, flag := none, cancelled := inherited, signature })
            "live cancellation node"
          let graph ← { graph with relays := graph.relays + 1 }.indexRelay id
          graph.normalize (RelayWork.known id :: entry.children.toList.map RelayWork.dirty)
        else do
          let (graph, affected) ← graph.erase id true true
          graph.normalize affected

/-- Depth-first marking from a stack of entries.  Returns the relays whose flag
changed and the still upgradable handles of the tokens whose flag changed, both in
the order of the marking. -/
def cancelLoop (upgrade : ω → Option ν) : Nat → Graph ω → List Nat → List Nat → List ν →
    Checked (Graph ω × List Nat × List ν)
  | _, graph, [], changedRelays, cancelled => pure (graph, changedRelays, cancelled)
  | 0, _, _ :: _, _, _ => .error "cancellation exceeded its fuel"
  | fuel + 1, graph, id :: pending, changedRelays, cancelled => do
      let node ← expect (graph.nodes id) "live cancellation path"
      if node.cancelled then cancelLoop upgrade fuel graph pending changedRelays cancelled
      else
        let graph := graph.put id { node with cancelled := true }
        -- The children are appended to a stack that is popped from its end.
        let pending := node.children.toList.reverse ++ pending
        match node.flag with
        | some flag =>
            cancelLoop upgrade fuel graph pending changedRelays
              (cancelled ++ (upgrade flag).toList)
        | none => cancelLoop upgrade fuel graph pending (changedRelays ++ [id]) cancelled

def cancelFuel (graph : Graph ω) : Nat := (graph.next + 1) ^ 2 + 1

def cancelNodes (graph : Graph ω) (upgrade : ω → Option ν) (id : Nat) :
    Checked (Graph ω × List ν) := do
  let (graph, changedRelays, cancelled) ←
    cancelLoop upgrade graph.cancelFuel graph [id] [] []
  let graph ← graph.normalize (changedRelays.map RelayWork.known)
  pure (graph, cancelled)

/-- `nodes[&id].cancelled`. -/
def isCancelled (graph : Graph ω) (id : Nat) : Checked Bool := do
  let entry ← graph.index id
  pure entry.cancelled

end Graph

end VThread.Cancellation
