/-
  Keys — digests as the short texts under which blocks are stored.

  * `Digest.key d` is the code of the hash function and the 32 bytes, in base 58, and
    `Digest.ofKey` reads such a text; every other text is a `badKey`;
  * `Digest.wire d` is the fixed binary form, four bytes for the hash function before the 32, and
    `Digest.ofWire?` reads it from the front of a byte string (`ofWire?_wire`).
-/
import ErasureVault.Digest.Basic
import ErasureVault.Failure
import ErasureVault.Text.Base58

namespace ErasureVault

/-- The hash function of a code, or the failure of a text that has no such code. -/
def Algorithm.ofCode (c : UInt8) : Except Failure Algorithm :=
  match Algorithm.ofCode? c with
  | some a => .ok a
  | none => .error (.badKey ("unknown hash code 0x" ++ Bytes.hex [c]))

namespace Digest

/-! ## Keys -/

/-- The text under which the content of a digest is stored. -/
def key (d : Digest) : String :=
  Base58.encode (d.algorithm.code :: d.bytes)

/-- The digest that the bytes of a key stand for. -/
def ofKeyBytes (raw : Bytes) : Except Failure Digest :=
  match raw with
  | code :: bytes =>
    if h : bytes.length = 32 then (Algorithm.ofCode code).map fun a => ⟨a, bytes, h⟩
    else .error (.badKey ("Invalid length: expected 33, got " ++ toString raw.length))
  | [] => .error (.badKey "Invalid length: expected 33, got 0")

def ofKey (key : String) : Except Failure Digest :=
  match Base58.decode key with
  | .ok raw => ofKeyBytes raw
  | .error fault => .error (.badKey fault.message)

/-- A key in short, with its first eight characters. -/
def debugKey (d : Digest) : String :=
  "BlockId(" ++ String.ofList (d.key.toList.take 8) ++ ")"

/-! ## Binary form -/

/-- The number of a hash function in the binary form. -/
def wireIndex : Algorithm → Nat
  | .blake3 => 0
  | .sha256 => 1

/-- The binary form of a digest. -/
def wire (d : Digest) : Bytes :=
  Bytes.littleEndian 4 (wireIndex d.algorithm) ++ d.bytes

/-- The digest whose binary form the byte string begins with. -/
def ofWire? (b : Bytes) : Option Digest :=
  let bytes := (b.drop 4).take 32
  if h : bytes.length = 32 then
    match Bytes.ofLittleEndian (b.take 4) with
    | 0 => some ⟨.blake3, bytes, h⟩
    | 1 => some ⟨.sha256, bytes, h⟩
    | _ => none
  else none

/-- A binary form reads back, whatever follows it. -/
theorem ofWire?_wire (d : Digest) (rest : Bytes) : ofWire? (d.wire ++ rest) = some d := by
  obtain ⟨a, bytes, h⟩ := d
  have hd : (wire ⟨a, bytes, h⟩ ++ rest).drop 4 = bytes ++ rest := by
    rw [wire, List.append_assoc, List.drop_left' (Bytes.length_littleEndian 4 _)]
  have ht : (wire ⟨a, bytes, h⟩ ++ rest).take 4 = Bytes.littleEndian 4 (wireIndex a) := by
    rw [wire, List.append_assoc, List.take_left' (Bytes.length_littleEndian 4 _)]
  have hb : (bytes ++ rest).take 32 = bytes := List.take_left' h
  cases a <;> simp [ofWire?, hd, ht, hb, h, wireIndex, Bytes.littleEndian, Bytes.ofLittleEndian]

end Digest

end ErasureVault
