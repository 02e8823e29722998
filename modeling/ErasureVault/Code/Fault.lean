/-
  Coding faults: what is wrong with the shards handed to a codec.

  `CodingFault` lists the faults, `CodingFault.message` words them, and `CodingFault.failure` is
  the failure of the operation that was given such shards.
-/
import ErasureVault.Failure

namespace ErasureVault

/-- What is wrong with the shards handed to a codec. -/
inductive CodingFault where
  | tooFewShards
  | tooManyShards
  | tooFewDataShards
  | tooManyDataShards
  | tooFewParityShards
  | tooManyParityShards
  | wrongShardSize
  | emptyShard
  | tooFewShardsPresent
  deriving DecidableEq

namespace CodingFault

/-- The sentence for a number of shards that differs from the codec's. -/
def countMessage (what how : String) : String :=
  "The number of provided " ++ what ++ " is " ++ how ++ " than the one in codec"

def message : CodingFault → String
  | tooFewShards => countMessage "shards" "smaller"
  | tooManyShards => countMessage "shards" "greater"
  | tooFewDataShards => countMessage "data shards" "smaller"
  | tooManyDataShards => countMessage "data shards" "greater"
  | tooFewParityShards => countMessage "parity shards" "smaller"
  | tooManyParityShards => countMessage "parity shards" "greater"
  | wrongShardSize => "At least one of the provided shards is not of the correct size"
  | emptyShard => "The first shard provided is of zero length"
  | tooFewShardsPresent => "reconstruction failed: too few shards present"

/-- The failure of an operation whose shards have the fault. -/
def failure (f : CodingFault) : Failure :=
  .coding f.message

end CodingFault

end ErasureVault
