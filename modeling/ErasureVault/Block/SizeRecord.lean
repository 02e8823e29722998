/-
  Size records: the four bytes that every slot keeps beside its shard, the size of the block.

  * `SizeRecord` holds a signed 32-bit number; `SizeRecord.ofSize` makes the record of a block,
    if its size fits, and `SizeRecord.size` reads it, a negative number as zero;
  * `SizeRecord.encode` writes the lowest byte first, and `SizeRecord.decode` reads four bytes
    that write no negative number.
-/
import ErasureVault.Bytes
import ErasureVault.Failure

namespace ErasureVault

/-- The record of the size of a block. -/
structure SizeRecord where
  value : Int32
  deriving DecidableEq

namespace SizeRecord

def maxSize : Nat := 2147483647

def byteLength : Nat := 4

def ofSize (size : Nat) : Except Failure SizeRecord :=
  if size ≤ maxSize then .ok ⟨Int32.ofNat size⟩ else .error (.blockTooLarge size maxSize)

/-- The size that a record states; no record states a negative one. -/
def size (r : SizeRecord) : Nat :=
  r.value.toInt.toNat

def encode (r : SizeRecord) : Bytes :=
  Bytes.littleEndian byteLength r.value.toUInt32.toNat

def decode (b : Bytes) : Except Failure SizeRecord :=
  if b.length ≠ byteLength then
    .error (.badRecord ("expected " ++ toString byteLength ++ " bytes, got " ++ toString b.length))
  else
    let value := (UInt32.ofNat (Bytes.ofLittleEndian b)).toInt32
    if value < 0 then .error (.badRecord ("negative block size " ++ toString value.toInt))
    else .ok ⟨value⟩

@[simp] theorem length_encode (r : SizeRecord) : r.encode.length = byteLength :=
  Bytes.length_littleEndian ..

end SizeRecord

end ErasureVault
