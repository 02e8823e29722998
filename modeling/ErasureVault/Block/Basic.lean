/-
  Blocks — payloads named by their digests.

  * `Block` is a payload with the hash function that names it, and `Block.id` its digest: a
    block cannot disagree with its name;
  * `Block.ofParts id b` is the block of the given id and payload, if they belong together
    (`ofParts_eq_ok_iff`).
-/
import ErasureVault.Block.Key

namespace ErasureVault

/-- A payload and the hash function that names it. -/
structure Block where
  algorithm : Algorithm
  data : Bytes
  deriving DecidableEq

namespace Block

def id (b : Block) : Digest :=
  .of b.algorithm b.data

def size (b : Block) : Nat :=
  b.data.length

/-- The block of a payload that is said to have the given id. -/
def ofParts (id : Digest) (data : Bytes) : Except Failure Block :=
  if id.Names data then .ok ⟨id.algorithm, data⟩
  else .error (.digestMismatch id.key (Digest.of id.algorithm data).key)

/-- A payload makes a block of the given id exactly if that is the id of the block. -/
theorem ofParts_eq_ok_iff {id : Digest} {data : Bytes} {b : Block} :
    ofParts id data = .ok b ↔ b.id = id ∧ b.data = data := by
  obtain ⟨a, d⟩ := b
  unfold ofParts Block.id
  constructor
  · intro h
    split at h
    · next hn => simp only [Except.ok.injEq, Block.mk.injEq] at h; grind [Digest.Names]
    · simp at h
  · rintro ⟨rfl, rfl⟩
    rw [if_pos (Digest.names_of a _)]
    rfl

end Block

end ErasureVault
