/-
  SHA-256 — the digest of FIPS 180-4.

  * `pad b` is the message with its end mark, zeros and length, a multiple of 64 bytes;
  * `schedule` extends the sixteen words of a block to the 64 of the rounds;
  * `compress` mixes a block into the state, and `hash` are the bytes of the last state
    (`length_hash`).
-/
import ErasureVault.Bytes
import ErasureVault.Digest.Words

namespace ErasureVault.Sha256

def constants : List UInt32 :=
  [0x428a2f98, 0x71374491, 0xb5c0fbcf, 0xe9b5dba5, 0x3956c25b, 0x59f111f1, 0x923f82a4, 0xab1c5ed5,
   0xd807aa98, 0x12835b01, 0x243185be, 0x550c7dc3, 0x72be5d74, 0x80deb1fe, 0x9bdc06a7, 0xc19bf174,
   0xe49b69c1, 0xefbe4786, 0x0fc19dc6, 0x240ca1cc, 0x2de92c6f, 0x4a7484aa, 0x5cb0a9dc, 0x76f988da,
   0x983e5152, 0xa831c66d, 0xb00327c8, 0xbf597fc7, 0xc6e00bf3, 0xd5a79147, 0x06ca6351, 0x14292967,
   0x27b70a85, 0x2e1b2138, 0x4d2c6dfc, 0x53380d13, 0x650a7354, 0x766a0abb, 0x81c2c92e, 0x92722c85,
   0xa2bfe8a1, 0xa81a664b, 0xc24b8b70, 0xc76c51a3, 0xd192e819, 0xd6990624, 0xf40e3585, 0x106aa070,
   0x19a4c116, 0x1e376c08, 0x2748774c, 0x34b0bcb5, 0x391c0cb3, 0x4ed8aa4a, 0x5b9cca4f, 0x682e6ff3,
   0x748f82ee, 0x78a5636f, 0x84c87814, 0x8cc70208, 0x90befffa, 0xa4506ceb, 0xbef9a3f7, 0xc67178f2]

/-! ## Words and bytes -/

/-- The whole words of a byte string, the highest byte first. -/
def words : Bytes → List UInt32
  | a :: b :: c :: d :: rest =>
    ((a.toUInt32 <<< 24) ||| (b.toUInt32 <<< 16) ||| (c.toUInt32 <<< 8) ||| d.toUInt32) :: words rest
  | _ => []

def wordBytes (w : UInt32) : Bytes :=
  [(w >>> 24).toUInt8, (w >>> 16).toUInt8, (w >>> 8).toUInt8, w.toUInt8]

/-- The message, a one bit, zeros and the length in bits, up to whole blocks. -/
def pad (b : Bytes) : Bytes :=
  b ++ 0x80 :: List.replicate ((119 - b.length % 64) % 64) 0
    ++ (Bytes.littleEndian 8 (8 * b.length)).reverse

/-! ## Compression -/

/-- The small sigma with the rotations `r`, `s` and the shift `t`. -/
def sigma (r s t x : UInt32) : UInt32 :=
  rotateRight x r ^^^ rotateRight x s ^^^ (x >>> t)

/-- The great sigma with the rotations `r`, `s`, `t`. -/
def bigSigma (r s t x : UInt32) : UInt32 :=
  rotateRight x r ^^^ rotateRight x s ^^^ rotateRight x t

/-- The next word of the schedule `w`. -/
def nextWord (w : Array UInt32) : UInt32 :=
  let back n := w.getD (w.size - n) 0
  back 16 + sigma 7 18 3 (back 15) + back 7 + sigma 17 19 10 (back 2)

def schedule (b : Bytes) : Array UInt32 :=
  Nat.repeat (fun w => w.push (nextWord w)) 48 (words b).toArray

/-- A round on the state, with its constant and its word. -/
def round (s : Chain) (k w : UInt32) : Chain :=
  let a := s.get 0
  let b := s.get 1
  let c := s.get 2
  let e := s.get 4
  let f := s.get 5
  let g := s.get 6
  let choice := (e &&& f) ^^^ (~~~e &&& g)
  let majority := (a &&& b) ^^^ (a &&& c) ^^^ (b &&& c)
  let t := s.get 7 + bigSigma 6 11 25 e + choice + k + w
  #v[t + bigSigma 2 13 22 a + majority, a, b, c, s.get 3 + t, e, f, g]

def compress (s : Chain) (b : Bytes) : Chain :=
  let mixed := (constants.zip (schedule b).toList).foldl (fun s (k, w) => round s k w) s
  Vector.zipWith (· + ·) s mixed

def compressAll (s : Chain) (b : Bytes) : Chain :=
  if _h : b = [] then s else compressAll (compress s (b.take 64)) (b.drop 64)
termination_by b.length
decreasing_by have := List.length_pos_iff.2 _h; simp; omega

def hash (b : Bytes) : Bytes :=
  (compressAll .initial (pad b)).toList.flatMap wordBytes

theorem length_hash (b : Bytes) : (hash b).length = 32 := by
  simp [hash, List.length_flatMap, wordBytes, List.map_const']

end ErasureVault.Sha256
