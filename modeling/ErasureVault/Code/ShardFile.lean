/-
  Shard files — where a long stream, coded block by block, lies in the file of one slot.

  * `ceilDiv n d` is the quotient rounded up, for signed numbers, and zero for `d = 0`;
  * `ShardFile` is a geometry with a block size; `ShardFile.contents f slot b` is what the file of
    a slot holds for the stream `b`, its shards of the blocks one after the other;
  * `ShardFile.shardSize` is what one whole block leaves in the file, `ShardFile.size total` the
    length of the file of a stream of `total` bytes, and `ShardFile.offset start length total` how
    far the file must be read to cover a range of the stream.
-/
import ErasureVault.Code.Stripe

namespace ErasureVault

/-- The quotient rounded up; division by zero gives zero. -/
def ceilDiv (n d : Int) : Int :=
  if d = 0 then 0
  else
    let (n, d) := if d < 0 then (-n, -d) else (n, d)
    if 0 < n ∧ n.tmod d ≠ 0 then n.tdiv d + 1 else n.tdiv d

/-- A stream coded in blocks of `blockSize` bytes. -/
structure ShardFile where
  geometry : Geometry
  blockSize : Int

namespace ShardFile

/-- What the file of a slot holds for a stream. -/
def contents (f : ShardFile) (slot : Nat) (b : Bytes) : Bytes :=
  (b.pieces f.blockSize.toNat).flatMap fun piece => (f.geometry.encode piece).getD slot []

def shardSize (f : ShardFile) : Int :=
  ceilDiv f.blockSize f.geometry.data

/-- The length of the file for a stream of `total` bytes; `-1` stands for an unknown length. -/
def size (f : ShardFile) (total : Int) : Int :=
  if total = 0 then 0
  else if total = -1 then -1
  else if f.blockSize ≤ 0 then 0
  else
    total.tdiv f.blockSize * f.shardSize
      + ceilDiv (total.tmod f.blockSize) f.geometry.data

/-- How much of the file covers the first `start + length` bytes of the stream. -/
def offset (f : ShardFile) (start length total : Int) : Int :=
  if f.blockSize ≤ 0 then 0
  else
    let till := (start + length).tdiv f.blockSize * f.shardSize + f.shardSize
    if f.size total < till then f.size total else till

end ShardFile

end ErasureVault
