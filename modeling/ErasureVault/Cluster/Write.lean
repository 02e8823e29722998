/-
  Writing and removing blocks.

  * `concludeWrite` is the outcome of a write, given what each slot answered: under `quorum`
    enough slots must have stored their shard, under `bestEffort` one;
  * `Cluster.put` stores a block, one shard a slot, each with the record of the block;
    `Cluster.putBy` leaves open how each slot is handed its shard;
  * `concludeDelete` is the outcome of a removal: every slot must answer, and one that does not
    hold the key is as good as one that removed it; `Cluster.delete` removes a block.
-/
import ErasureVault.Block.Basic
import ErasureVault.Cluster.Basic

namespace ErasureVault

/-- The outcome of a write of which `required` slots must take part. -/
def concludeWrite (policy : WritePolicy) (required : Nat) (canceled : Bool)
    (outcomes : List (Outcome Unit)) : Outcome Unit :=
  let succeeded := outcomes.countP Outcome.isOk
  if canceled then .error .canceledByCaller
  else
    match policy with
    | .quorum =>
      if required ≤ succeeded then .ok ()
      else
        Quorum.resolve canceled [] required (fun _ => .writeQuorum succeeded required) outcomes
    | .bestEffort => if 0 < succeeded then .ok () else .error (.writeQuorum succeeded 1)

/-- The slots that failed to remove a key, with their failures. -/
def deleteFailures (outcomes : List (Outcome Unit)) : List (Nat × Failure) :=
  outcomes.zipIdx.filterMap fun (outcome, slot) =>
    match outcome with
    | .ok () => none
    | .error e => if e.isMissing then none else some (slot, e)

def concludeDelete (canceled : Bool) (outcomes : List (Outcome Unit)) : Outcome Unit :=
  if canceled then .error .canceledByCaller
  else
    match deleteFailures outcomes with
    | [] => .ok ()
    | failures => .error (.slotsFailed outcomes.length failures)

namespace Cluster

/-- Calls every slot with its shard. -/
def callEach (token : Token) (shards : List Bytes) (call : Bytes → Node → Attempt Unit × Node) :
    Op (List (Outcome Unit)) :=
  Op.callAll "put" token fun slot => call (shards.getD slot [])

/-- Stores a block; `each` calls every slot with its shard. -/
def putBy (each : List Bytes → (Bytes → Node → Attempt Unit × Node) → Op (List (Outcome Unit)))
    (token : Token) (b : Block) : Op Unit := .timed "put" do
  let record ← Op.ofOutcome (SizeRecord.ofSize b.size)
  let c ← Op.cluster
  let (shards, codec) := c.codec.encode b.data
  Op.setCodec codec
  let outcomes ← each shards (Node.put b.id.key record.encode)
  Op.ofOutcome (concludeWrite c.policy c.thresholds.write (← Op.isCanceled token) outcomes)

def put (token : Token) (b : Block) : Op Unit :=
  putBy (callEach token) token b

def delete (token : Token) (id : Digest) : Op Unit := .timed "delete" do
  let key := id.key
  let outcomes ← Op.callAll "delete" token fun _ => Node.delete key
  Op.ofOutcome (concludeDelete (← Op.isCanceled token) outcomes)

end Cluster

end ErasureVault
