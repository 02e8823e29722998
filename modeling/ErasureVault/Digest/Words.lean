/-
  Words: the 32-bit arithmetic that the hash functions share.

  * `Chain` are the eight words carried from block to block, and `Chain.initial` the first of
    them, the leading bits of the square roots of the first eight primes;
  * `rotateRight` turns a word by some bits.
-/

namespace ErasureVault

/-- Eight words carried from block to block. -/
abbrev Chain := Vector UInt32 8

/-- The words before the first block. -/
def Chain.initial : Chain :=
  #v[0x6A09E667, 0xBB67AE85, 0x3C6EF372, 0xA54FF53A, 0x510E527F, 0x9B05688C, 0x1F83D9AB, 0x5BE0CD19]

/-- Rotation to the right by `n` bits, from 1 to 31. -/
def rotateRight (x n : UInt32) : UInt32 :=
  (x >>> n) ||| (x <<< (32 - n))

end ErasureVault
