/-
  Clusters — slots over nodes, and the calls that go to all of them.

  * `Cluster` holds the codec, the write policy, the time limit of a slot, the bindings of the
    slots, the nodes by number and the journal of events;
  * `Setup` is what is set up over some nodes, and `Setup.cluster?` the cluster of it. There is one
    if the counts of shards have a geometry; no block is ever kept as so many shards that they
    have none, and operations on such slots are left out;
  * `Op` is an operation on a cluster, which takes time and may fail: its effects stay when it
    fails; `Op.run` runs one and gives the milliseconds that it took;
  * `callNode` is one call of one node, `callSlots` the calls of all slots in their order, which
    share nothing but the nodes they are bound to; `Op.callAll` waits for all of them, and
    `Op.callSlot` calls a single slot;
  * `Op.timed` counts an operation.
-/
import ErasureVault.Code.Codec
import ErasureVault.Node.Basic

namespace ErasureVault

/-- When a write counts as done. -/
inductive WritePolicy where
  /-- Enough slots stored their shard. -/
  | quorum
  /-- Some slot stored its shard. -/
  | bestEffort
  deriving DecidableEq

/-- What a slot is bound to. -/
structure Binding where
  address : String
  /-- The number of the node. -/
  node : Nat
  deriving DecidableEq

/-- Slots over nodes. -/
structure Cluster where
  codec : Codec
  policy : WritePolicy
  /-- The milliseconds that a slot has for a call, if there is a limit. -/
  limit : Option Nat
  slots : List Binding
  nodes : List Node
  journal : Journal

namespace Cluster

def geometry (c : Cluster) : Geometry :=
  c.codec.geometry

def thresholds (c : Cluster) : Thresholds :=
  c.geometry.thresholds

def node (c : Cluster) (number : Nat) : Node :=
  c.nodes.getD number default

/-- The cluster with `f` applied to one of its nodes. -/
def modifyNode (c : Cluster) (number : Nat) (f : Node → Node) : Cluster :=
  { c with nodes := c.nodes.modify number f }

/-- The cluster with one node more, and the number of that node. -/
def addNode (c : Cluster) (n : Node) : Nat × Cluster :=
  (c.nodes.length, { c with nodes := c.nodes ++ [n] })

end Cluster

/-! ## Setting up -/

/-- What is set up over some nodes, for the counts of shards that are asked for. -/
structure Setup where
  counts : Counts
  policy : WritePolicy
  limit : Option Nat
  slots : List Binding
  nodes : List Node

namespace Setup

/-- One slot for each of the given nodes, if they are as many as the word of the sum says. -/
def ofNodes (data parity : UInt64) (nodes : List (String × Node)) : Except Failure Setup := do
  let counts ← Counts.ofWords data parity
  if nodes.length ≠ counts.total.toNat then
    throw (.misconfigured
      ("expected " ++ toString counts.total ++ " node slots, got " ++ toString nodes.length))
  return {
    counts
    policy := .quorum
    limit := none
    slots := nodes.zipIdx.map fun ((address, _), number) => ⟨address, number⟩
    nodes := nodes.map Prod.snd }

/-- The cluster over the slots, if the counts have a geometry. -/
def cluster? (u : Setup) : Option Cluster :=
  u.counts.asGeometry.map fun g =>
    { codec := .ofGeometry g 0
      policy := u.policy
      limit := u.limit
      slots := u.slots
      nodes := u.nodes
      journal := [] }

end Setup

/-! ## Operations -/

structure Progress where
  cluster : Cluster
  /-- The milliseconds since the operation began. -/
  now : Nat

abbrev Op (α : Type) := ExceptT Failure (StateM Progress) α

namespace Op

variable {α : Type}

/-- Runs an operation: its outcome, the milliseconds it took, and the cluster after it. -/
def run (op : Op α) (c : Cluster) : Outcome α × Nat × Cluster :=
  let (outcome, p) := ExceptT.run op ⟨c, 0⟩
  (outcome, p.now, p.cluster)

def cluster : Op Cluster := do
  return (← get).cluster

def modifyCluster (f : Cluster → Cluster) : Op Unit :=
  modify fun p => { p with cluster := f p.cluster }

def isCanceled (token : Token) : Op Bool := do
  return token.isCanceled (← get).now

/-- The operation that does nothing and has the given outcome. -/
def ofOutcome (outcome : Outcome α) : Op α := fun p =>
  (outcome, p)

def checkToken (token : Token) : Op Unit := do
  if ← isCanceled token then throw .canceledByCaller

def setCodec (codec : Codec) : Op Unit :=
  modifyCluster fun c => { c with codec }

def count (e : Event) : Op Unit :=
  modifyCluster fun c => { c with journal := e :: c.journal }

/-- Counts an operation and whether it ended well. -/
def timed (name : String) (op : Op α) : Op α := fun p =>
  let (outcome, p) := ExceptT.run op p
  (outcome, { p with cluster := { p.cluster with
    journal := .operation name outcome.isOk :: p.cluster.journal } })

end Op

/-! ## Calls of slots -/

variable {α : Type}

/-- Calls a node on behalf of a slot; a call that is stopped leaves the node as it was. -/
def callNode (t : Terms) (slot : Nat) (call : Node → Attempt α × Node) (n : Node) :
    Settled α × Node :=
  let (attempt, after) := call n
  let settled := t.settle slot attempt
  (settled, (if settled.reached then after else n).tick)

/-- Calls the slots from the number `slot` on, each bound to the node of the given number. -/
def callSlots (t : Terms) (call : Nat → Node → Attempt α × Node) (slot : Nat) :
    (numbers : List Nat) → (nodes : List Node) → List (Settled α) × List Node
  | [], nodes => ([], nodes)
  | number :: numbers, nodes =>
    let (first, node) := callNode t slot (call slot) (nodes.getD number default)
    let (others, nodes) := callSlots t call (slot + 1) numbers (nodes.set number node)
    (first :: others, nodes)

namespace Op

/-- Calls all slots at once, and waits until the last has settled. -/
def callAll (label : String) (token : Token) (call : Nat → Node → Attempt α × Node) :
    Op (List (Outcome α)) := do
  let p ← get
  let c := p.cluster
  let (settled, nodes) :=
    callSlots ⟨label, token, c.limit, p.now⟩ call 0 (c.slots.map Binding.node) c.nodes
  set ({ cluster := { c with nodes, journal := countedOf settled ++ c.journal }
         now := p.now + latest settled } : Progress)
  return settled.map Settled.outcome

def callSlot (label : String) (token : Token) (slot : Nat) (b : Binding)
    (call : Node → Attempt α × Node) : Op (Outcome α) := do
  let p ← get
  let c := p.cluster
  let (settled, node) := callNode ⟨label, token, c.limit, p.now⟩ slot call (c.node b.node)
  set ({ cluster := { c with nodes := c.nodes.set b.node node, journal := settled.events ++ c.journal }
         now := p.now + settled.elapsed } : Progress)
  return settled.outcome

end Op

end ErasureVault
