/-
  Coding with all that can be wrong with the shards.

  * `CodingFault.ofCounts?` is what is wrong with the counts of a coding matrix,
    `CodingFault.ofShards?` what is wrong with shards whose parity is to be computed or checked, and
    `CodingFault.ofStripe?` what is wrong with a stripe that is to be rebuilt;
  * `Codec.check`, `Codec.encodeChecked` and `Codec.rebuildChecked` fail where the matrix cannot be
    built or applied. `Codec.consistent`, `Codec.encode` and `Codec.rebuild` are what they come to
    where nothing is wrong;
  * `Codec.encodeChecked` puts the shards of a block together piece by piece.
-/
import ErasureVault.Code.Codec

namespace ErasureVault

namespace CodingFault

/-- What is wrong with the counts of a coding matrix; its field has 256 elements. -/
def ofCounts? (data parity : Nat) : Option CodingFault :=
  if data = 0 then some tooFewDataShards
  else if parity = 0 then some tooFewParityShards
  else if 256 < data + parity then some tooManyShards
  else none

/-- What is wrong with shards whose parity is to be computed by a matrix for `total` shards. -/
def ofShards? (total : Nat) (shards : List Bytes) : Option CodingFault :=
  let n := (shards.headD []).length
  if shards.length < total then some tooFewShards
  else if total < shards.length then some tooManyShards
  else if n = 0 then some emptyShard
  else if shards.any fun b => b.length ≠ n then some wrongShardSize
  else none

/-- What is wrong with a stripe that is to be rebuilt by a matrix for `total` shards, from `data` of
them. The shards are looked at slot after slot. -/
def ofStripe? (data total : Nat) (s : Stripe) : Option CodingFault :=
  let shards := s.present.map Prod.snd
  let n := (shards.headD []).length
  if s.length < total then some tooFewShards
  else if total < s.length then some tooManyShards
  else
    match shards.findSome? fun b =>
        if b = [] then some emptyShard else if b.length ≠ n then some wrongShardSize else none with
    | some f => some f
    | none =>
      if shards.length ≠ total ∧ shards.length < data then some tooFewShardsPresent else none

end CodingFault

namespace Codec

/-- Whether the shards are those of one block, if the matrix can tell: it is only asked about shards
of one length other than zero. -/
def check (c : Codec) (shards : List Bytes) : Except Failure Bool × Codec :=
  let g := c.geometry
  if ¬ g.sameShape shards then (.ok false, c)
  else if shards.headD [] = [] then (.ok true, c)
  else
    match CodingFault.ofCounts? g.data g.parity with
    | some f => (.error f.failure, c)
    | none =>
      match CodingFault.ofShards? g.total shards with
      | some f => (.error f.failure, c.after true)
      | none =>
        let parity := g.parityShards (shards.headD []).length (shards.take g.data)
        (.ok (shards.drop g.data = parity), c.after true)

/-- All shards of a block: its pieces, filled up with zeros, and as many shards of zeros as are left,
of which the last make room for the parity. -/
def encodeChecked (c : Codec) (b : Bytes) : Except Failure (List Bytes) × Codec :=
  let g := c.geometry
  if b = [] then (.ok (List.replicate g.total []), c)
  else
    let n := b.length / g.data + if b.length % g.data = 0 then 0 else 1
    let filled := (b.pieces n).map (Bytes.padTo n)
    let shards :=
      filled.take g.total ++ List.replicate (g.total - filled.length) (List.replicate n 0)
    match CodingFault.ofCounts? g.data g.parity with
    | some f => (.error f.failure, c)
    | none =>
      match CodingFault.ofShards? g.total shards with
      | some f => (.error f.failure, c.after true)
      | none =>
        let data := shards.take g.data
        (.ok (data ++ g.parityShards (shards.headD []).length data), c.after true)

/-- Rebuilds a stripe, and gives it as it then is. -/
def rebuildChecked (c : Codec) (extent : Geometry.Extent) (s : Stripe) :
    Except Failure Unit × Stripe × Codec :=
  let g := c.geometry
  if s.length ≠ g.total then
    (.error (.coding ("expected " ++ toString g.total ++ " shards, got " ++ toString s.length)), s, c)
  else
    let s := s.dropEmpty
    let present := s.present.length
    if present = g.total ∨ present = 0 then (.ok (), s, c)
    else if present < g.data then (.error (.shardsMissing present g.data), s, c)
    else
      match CodingFault.ofCounts? g.data g.parity with
      | some f => (.error f.failure, s, c)
      | none =>
        match CodingFault.ofStripe? g.data g.total s with
        | some f => (.error f.failure, s, c.after true)
        | none => (.ok (), g.fillTo extent s, c.after true)

end Codec

end ErasureVault
