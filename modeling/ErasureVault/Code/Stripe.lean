/-
  Stripes — a block as data shards and parity shards, one a slot.

  * `Stripe` lists the shards of a block by slot, with `none` for a missing one;
  * `Geometry.encode g b` are all shards of `b`: its bytes cut into `g.data` equal pieces,
    and `g.parity` more that continue them, byte by byte, as the values of one polynomial
    (`Geometry.parityShards`); `length_encode`, `length_of_mem_encode`;
  * `Geometry.rebuild g extent s` fills in the missing data shards, or all missing shards,
    and gives the stripe as it then is, unchanged on a failure but for empty shards, which
    count as missing (`Stripe.dropEmpty`); `Geometry.examine` says whether anything can and
    must be done;
  * `Geometry.consistent g shards` says whether shards are those of one block.
-/
import ErasureVault.Code.Fault
import ErasureVault.Code.Geometry
import ErasureVault.Code.Interpolation

namespace ErasureVault

/-- The shards of a block by slot; a missing one is `none`. -/
abbrev Stripe := List (Option Bytes)

namespace Stripe

/-- The stripe with its empty shards taken for missing. -/
def dropEmpty (s : Stripe) : Stripe :=
  s.map fun
    | some [] => none
    | shard => shard

def present (s : Stripe) : List (Nat × Bytes) :=
  s.zipIdx.filterMap fun (shard, slot) => shard.map (slot, ·)

/-- The stripe with `f slot` at each slot whose shard is missing. -/
def fill (s : Stripe) (f : Nat → Option Bytes) : Stripe :=
  s.zipIdx.map fun (shard, slot) =>
    match shard with
    | some b => some b
    | none => f slot

@[simp] theorem length_dropEmpty (s : Stripe) : s.dropEmpty.length = s.length := by
  simp [dropEmpty]

@[simp] theorem length_fill (s : Stripe) (f : Nat → Option Bytes) :
    (s.fill f).length = s.length := by
  simp [fill]

theorem getElem?_fill (s : Stripe) (f : Nat → Option Bytes) (i : Nat) :
    (s.fill f)[i]? = s[i]?.map (fun shard => shard <|> f i) := by
  rw [fill, List.getElem?_map, List.getElem?_zipIdx, Nat.zero_add]
  cases s[i]? with
  | none => rfl
  | some shard => cases shard <;> rfl

end Stripe

namespace Geometry

/-! ## Encoding -/

/-- The bytes of a block in `g.data` pieces of one length. -/
def dataShards (g : Geometry) (b : Bytes) : List Bytes :=
  b.cut g.data (g.shardLength b.length)

/-- The points that data shards of `n` bytes give, slot after slot. -/
def dataPoints (n : Nat) (shards : List Bytes) : Interpolation.Points :=
  .ofShards n (shards.zipIdx.map Prod.swap)

/-- The shards that continue data shards of `n` bytes. -/
def parityShards (g : Geometry) (n : Nat) (shards : List Bytes) : List Bytes :=
  let points := dataPoints n shards
  (List.range g.parity).map fun j => points.valuesAt (g.data + j)

/-- All shards of a block, those of its data first. -/
def encode (g : Geometry) (b : Bytes) : List Bytes :=
  let shards := g.dataShards b
  shards ++ g.parityShards (g.shardLength b.length) shards

/-! ## Rebuilding -/

inductive Extent where
  /-- The missing data shards. -/
  | data
  /-- All missing shards. -/
  | everything
  deriving DecidableEq

/-- Whether there are missing shards to rebuild; a stripe with no shard at all is left as it is. -/
def examine (g : Geometry) (s : Stripe) : Except Failure Bool :=
  let shards := s.present
  if shards.length = g.total ∨ shards = [] then .ok false
  else if shards.length < g.data then .error (.shardsMissing shards.length g.data)
  else if shards.any fun (_, b) => b.length ≠ (shards.headD (0, [])).2.length then
    .error CodingFault.wrongShardSize.failure
  else .ok true

/-- The points that the first `g.data` shards of a stripe give. -/
def basis (g : Geometry) (s : Stripe) : Interpolation.Points :=
  let shards := s.present.take g.data
  .ofShards (shards.headD (0, [])).2.length shards

/-- The stripe with its missing data shards computed from the first `g.data` that are there. -/
def fillData (g : Geometry) (s : Stripe) : Stripe :=
  let points := g.basis s
  s.fill fun slot => if slot < g.data then some (points.valuesAt slot) else none

/-- The stripe with its missing shards computed from its data shards. -/
def fillParity (g : Geometry) (s : Stripe) : Stripe :=
  let points := g.basis s
  s.fill fun slot => some (points.valuesAt slot)

/-- The stripe with the missing shards of the given extent filled in. -/
def fillTo (g : Geometry) : Extent → Stripe → Stripe
  | .data, s => g.fillData s
  | .everything, s => g.fillParity (g.fillData s)

/-- Rebuilds a stripe, and gives it as it then is. -/
def rebuild (g : Geometry) (extent : Extent) (s : Stripe) : Except Failure Unit × Stripe :=
  if s.length ≠ g.total then
    (.error (.coding ("expected " ++ toString g.total ++ " shards, got " ++ toString s.length)), s)
  else
    let s := s.dropEmpty
    match g.examine s with
    | .error e => (.error e, s)
    | .ok false => (.ok (), s)
    | .ok true => (.ok (), g.fillTo extent s)

/-! ## Checking -/

/-- Whether the shards are as many as the geometry has, and equally long. -/
def sameShape (g : Geometry) (shards : List Bytes) : Bool :=
  shards.length = g.total && shards.all fun b => b.length = (shards.headD []).length

/-- Whether the shards are those of one block. -/
def consistent (g : Geometry) (shards : List Bytes) : Bool :=
  g.sameShape shards &&
    shards.drop g.data = g.parityShards (shards.headD []).length (shards.take g.data)

/-! ## Lengths -/

theorem length_of_mem_dataShards {g : Geometry} {b s : Bytes} (h : s ∈ g.dataShards b) :
    s.length = g.shardLength b.length :=
  Bytes.length_of_mem_cut h

@[simp] theorem length_dataShards (g : Geometry) (b : Bytes) :
    (g.dataShards b).length = g.data :=
  Bytes.length_cut ..

@[simp] theorem length_encode (g : Geometry) (b : Bytes) : (g.encode b).length = g.total := by
  simp [encode, parityShards, total]

theorem length_valuesAt_dataPoints (n : Nat) (shards : List Bytes) (x : Nat)
    (h : ∀ s ∈ shards, s.length = n) : ((dataPoints n shards).valuesAt x).length = n := by
  refine Interpolation.length_combine n _ _ fun s hs => h s ?_
  simp only [dataPoints, Interpolation.Points.ofShards, List.mem_map] at hs
  obtain ⟨_, ⟨⟨b, i⟩, hb, rfl⟩, rfl⟩ := hs
  exact List.mem_of_getElem? (List.mk_mem_zipIdx_iff_getElem?.1 hb)

theorem length_of_mem_encode {g : Geometry} {b s : Bytes} (h : s ∈ g.encode b) :
    s.length = g.shardLength b.length := by
  rcases List.mem_append.1 h with h | h
  · exact length_of_mem_dataShards h
  · simp only [parityShards, List.mem_map] at h
    obtain ⟨j, _, rfl⟩ := h
    exact length_valuesAt_dataPoints _ _ _ fun _ => length_of_mem_dataShards

/-- The data shards, laid end to end, begin with the block. -/
theorem flatten_dataShards (g : Geometry) (b : Bytes) :
    (g.dataShards b).flatten =
      b ++ List.replicate (g.data * g.shardLength b.length - b.length) 0 :=
  Bytes.flatten_cut _ _ _ (g.le_mul_shardLength _)

/-- The first data shards of a block, cut to its size, are the block. -/
theorem take_flatten_encode (g : Geometry) (b : Bytes) :
    (((g.encode b).take g.data).flatten).take b.length = b := by
  have h : (g.encode b).take g.data = g.dataShards b := by
    rw [encode, List.take_append_of_le_length (by simp), List.take_of_length_le (by simp)]
  rw [h, flatten_dataShards, List.take_append_of_le_length (by simp), List.take_length]

end Geometry

end ErasureVault
