/-
  Digests — the fingerprints by which contents are named.

  * `Algorithm` lists the hash functions, with their one-byte codes (`Algorithm.code`,
    `Algorithm.ofCode?`, `ofCode?_eq_some_iff`) and their names;
  * `Digest` is an algorithm with 32 bytes; `Digest.of` computes it from a content and
    `Digest.Names d b` says that `b` has the digest `d`.
-/
import ErasureVault.Digest.Blake3
import ErasureVault.Digest.Sha256

namespace ErasureVault

inductive Algorithm where
  | blake3
  | sha256
  deriving DecidableEq

namespace Algorithm

instance : Inhabited Algorithm := ⟨blake3⟩

def code : Algorithm → UInt8
  | blake3 => 0x1E
  | sha256 => 0x12

def ofCode? (c : UInt8) : Option Algorithm :=
  if c = 0x1E then some blake3 else if c = 0x12 then some sha256 else none

def name : Algorithm → String
  | blake3 => "blake3"
  | sha256 => "sha2-256"

/-- The 32 bytes that a hash function gives for a content. -/
def hash : Algorithm → Bytes → Bytes
  | blake3, b => Blake3.hash b
  | sha256, b => Sha256.hash b

theorem length_hash (a : Algorithm) (b : Bytes) : (a.hash b).length = 32 := by
  cases a
  · exact Blake3.length_hash b
  · exact Sha256.length_hash b

theorem ofCode?_eq_some_iff {c : UInt8} {a : Algorithm} : ofCode? c = some a ↔ a.code = c := by
  unfold ofCode?
  cases a <;> grind [code]

end Algorithm

/-- The fingerprint of a content: a hash function and the 32 bytes it gives. -/
structure Digest where
  algorithm : Algorithm
  bytes : Bytes
  length_bytes : bytes.length = 32
  deriving DecidableEq

namespace Digest

def of (a : Algorithm) (b : Bytes) : Digest :=
  ⟨a, a.hash b, a.length_hash b⟩

/-- Whether a content has the digest. -/
def Names (d : Digest) (b : Bytes) : Prop :=
  of d.algorithm b = d

instance (d : Digest) (b : Bytes) : Decidable (d.Names b) :=
  inferInstanceAs (Decidable (_ = _))

theorem names_of (a : Algorithm) (b : Bytes) : (of a b).Names b := rfl

/-- A digest in full: the name of its hash function, a colon and its bytes. -/
def display (d : Digest) : String :=
  d.algorithm.name ++ ":" ++ d.bytes.hex

/-- A digest in short, with its first eight bytes. -/
def debug (d : Digest) : String :=
  "ContentHash(" ++ d.algorithm.name ++ ":" ++ Bytes.hex (d.bytes.take 8) ++ ")"

end Digest

end ErasureVault
