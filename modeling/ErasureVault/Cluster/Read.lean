/-
  Reading blocks — in two steps: the slots agree on the size, then enough of them give their shards.

  * `concludeSize` is the size of a block, given the record that each slot answered with: enough
    slots must answer, and enough of those must agree; `Cluster.agreedSize` asks them, under the
    key of the block, and `Cluster.agreedSizeUnder` under any text;
  * `screen n` keeps the shards of `n` bytes, and `Cluster.collect` asks the slots for theirs;
    `Cluster.collectOf` does so for a length that is told otherwise;
  * `Cluster.restore` rebuilds what is missing, and `Geometry.payload` puts the data shards
    together;
  * `Cluster.size`, `Cluster.get` and `Cluster.verify` are the operations: the size of a block,
    the block, and whether every slot holds its shard of it.
-/
import ErasureVault.Block.Basic
import ErasureVault.Cluster.Basic

namespace ErasureVault

/-! ## Decisions -/

/-- Whether the outcome says that a key is not there. -/
def Outcome.isMissing {α : Type} : Outcome α → Bool
  | .ok _ => false
  | .error e => e.isMissing

/-- The failure of a read on whose size too few slots answered. -/
def unavailable (key : String) (required : Nat) (records : List (Outcome SizeRecord)) : Failure :=
  if required ≤ records.countP Outcome.isMissing then .blockUnknown key
  else
    let agreeing := records.countP Outcome.isOk
    .readQuorum agreeing required (records.length - agreeing)

/-- The size on which at least `required` slots agree. -/
def concludeSize (canceled : Bool) (key : String) (required : Nat)
    (records : List (Outcome SizeRecord)) : Outcome Nat :=
  let agreeing := records.countP Outcome.isOk
  if agreeing < required then
    let answers : List (Outcome Unit) := records.map fun r => r.map fun _ => ()
    match Quorum.resolve canceled Quorum.readIgnored required
        (fun _ => unavailable key required records) answers with
    | .error e => .error (if e.isCanceled then e else unavailable key required records)
    | .ok () => .error (unavailable key required records)
  else
    (Quorum.resolve canceled [] required
      (fun count => .readQuorum count required (records.length - agreeing))
      (records.filter Outcome.isOk)).map SizeRecord.size

/-- The shards of `n` bytes among the answers of the slots. -/
def screen (n : Nat) (shards : List (Outcome Bytes)) : Stripe :=
  shards.map fun
    | .ok b => if b.length = n then some b else none
    | .error _ => none

/-- The first `size` bytes of the data shards, laid end to end. -/
def Geometry.payload (g : Geometry) (size : Nat) (s : Stripe) : Bytes :=
  ((s.take g.data).map fun shard => shard.getD []).flatten.take size

namespace Cluster

/-! ## Steps -/

/-- The size on which the slots agree when they are asked under `key`; one data shard is not enough
    for a majority. -/
def agreedSizeUnder (token : Token) (key : String) : Op Nat := do
  Op.checkToken token
  let c ← Op.cluster
  let required := c.thresholds.read
  if required < 2 then throw (.readQuorum 0 required 0)
  let records ← Op.callAll "get_meta" token fun _ => Node.getSize key
  Op.ofOutcome (concludeSize (← Op.isCanceled token) key required records)

def agreedSize (token : Token) (id : Digest) : Op Nat :=
  agreedSizeUnder token id.key

/-- The shards that the slots give, of the length that `length` tells, without asking the slot
    `skip`; there are none of no length. -/
def collectOf (length : Cluster → Nat) (token : Token) (key : String) (skip : Option Nat) :
    Op Stripe := do
  let c ← Op.cluster
  let n := length c
  if n = 0 then return List.replicate c.slots.length none
  let shards ← Op.callAll "get" token fun slot node =>
    if skip = some slot then (⟨0, .value []⟩, node) else node.get key
  Op.checkToken token
  return screen n shards

/-- The shards of a block of `size` bytes that the slots give. -/
def collect (token : Token) (key : String) (size : Nat) (skip : Option Nat) : Op Stripe :=
  collectOf (fun c => c.geometry.shardLength size) token key skip

/-- The stripe with its missing shards rebuilt; one without any shard is only right for an empty
    block. -/
def restore (extent : Geometry.Extent) (size : Nat) (s : Stripe) : Op Stripe := do
  let c ← Op.cluster
  let present := s.countP Option.isSome
  if 0 < size ∧ present < c.geometry.data then
    throw (.shardsMissing present c.geometry.data)
  let (outcome, rebuilt, codec) := c.codec.rebuild extent s
  Op.setCodec codec
  Op.ofOutcome (outcome.map fun _ => rebuilt)

/-! ## Operations -/

def size (token : Token) (id : Digest) : Op Nat :=
  .timed "get_size" (agreedSize token id)

def get (token : Token) (id : Digest) : Op Block := .timed "get" do
  let size ← agreedSize token id
  let stripe ← collect token id.key size none
  let stripe ← restore .data size stripe
  let c ← Op.cluster
  Op.ofOutcome (Block.ofParts id (c.geometry.payload size stripe))

/-- Whether every slot holds its shard of a block. -/
def verify (token : Token) (id : Digest) : Op Bool := .timed "verify" do
  let size ← agreedSize token id
  let stripe ← collect token id.key size none
  if size = 0 then return true
  match (stripe.mapM fun shard => shard : Option (List Bytes)) with
  | none => return false
  | some shards =>
    let c ← Op.cluster
    let (consistent, codec) := c.codec.consistent shards
    Op.setCodec codec
    return consistent && decide (id.Names (c.geometry.payload size stripe))

end Cluster

end ErasureVault
