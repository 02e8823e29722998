/-
  Codecs — a geometry and a block size, with the coding matrix built on first use.

  * `Codec.encode`, `Codec.rebuild` and `Codec.consistent` are those of the geometry, and give
    the codec as they leave it: `ready` once the matrix was needed;
  * `Codec.describe` is the text shown for a codec.
-/
import ErasureVault.Code.ShardFile
import ErasureVault.Code.Stripe

namespace ErasureVault

/-- A geometry with a block size, and whether its matrix has been built. -/
structure Codec where
  geometry : Geometry
  blockSize : Int
  ready : Bool

namespace Codec

def ofGeometry (g : Geometry) (blockSize : Int) : Codec :=
  ⟨g, blockSize, false⟩

def withBlockSize (c : Codec) (blockSize : Int) : Codec :=
  { c with blockSize }

/-- The layout of a stream in the files of the slots. -/
def shardFile (c : Codec) : ShardFile :=
  ⟨c.geometry, c.blockSize⟩

/-- The codec after a step that needed the matrix, or did not. -/
def after (c : Codec) (needed : Bool) : Codec :=
  { c with ready := c.ready || needed }

/-- All shards of a block; those of the empty block need no matrix. -/
def encode (c : Codec) (b : Bytes) : List Bytes × Codec :=
  (c.geometry.encode b, c.after !b.isEmpty)

/-- Whether rebuilding a stripe needs the matrix: some shards are missing and enough are there. -/
def needsMatrix (g : Geometry) (s : Stripe) : Bool :=
  let present := s.dropEmpty.present.length
  s.length = g.total && present ≠ g.total && g.data ≤ present

def rebuild (c : Codec) (extent : Geometry.Extent) (s : Stripe) :
    Except Failure Unit × Stripe × Codec :=
  let (outcome, rebuilt) := c.geometry.rebuild extent s
  (outcome, rebuilt, c.after (needsMatrix c.geometry s))

/-- Whether the shards are those of one block; empty shards need no matrix. -/
def consistent (c : Codec) (shards : List Bytes) : Bool × Codec :=
  (c.geometry.consistent shards,
    c.after (c.geometry.sameShape shards && shards.headD [] ≠ []))

def describe (c : Codec) : String :=
  "ErasureCoder \x7b config: ErasureConfig \x7b data_shards: " ++ toString c.geometry.data
    ++ ", parity_shards: " ++ toString c.geometry.parity ++ " \x7d, block_size: "
    ++ toString c.blockSize ++ ", codec_ready: " ++ toString c.ready ++ " \x7d"

end Codec

end ErasureVault
