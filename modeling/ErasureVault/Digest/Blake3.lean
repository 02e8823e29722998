/-
  BLAKE3 — the 32-byte digest of its default mode.

  * `compress` mixes a chaining value with a block of sixteen words in seven rounds;
  * `leaf` hashes a chunk of at most 1024 bytes block by block, and `leaves` all chunks of a
    message; a `Pending` node is one whose last compression has not been run, as only the root
    is compressed with a flag of its own;
  * `parents` joins neighbours, the odd last one waiting for the next round, and `root` does so
    until one node is left: every left subtree is then the largest full one;
  * `hash` are the bytes of the root (`length_hash`).
-/
import ErasureVault.Bytes
import ErasureVault.Digest.Words

namespace ErasureVault.Blake3

/-- A message block, or the state of the compression. -/
abbrev Words := Vector UInt32 16

/-! ## Flags -/

def chunkStart : UInt32 := 1

def chunkEnd : UInt32 := 2

def parentNode : UInt32 := 4

def rootNode : UInt32 := 8

/-! ## Compression -/

/-- The quarter round on four words of the state and two of the message. -/
def quarter (v : Words) (i j k l : Fin 16) (x y : UInt32) : Words :=
  let a := v[i] + v[j] + x
  let d := rotateRight (v[l] ^^^ a) 16
  let c := v[k] + d
  let b := rotateRight (v[j] ^^^ c) 12
  let a := a + b + y
  let d := rotateRight (d ^^^ a) 8
  let c := c + d
  let b := rotateRight (b ^^^ c) 7
  (((v.set i a).set j b).set k c).set l d

/-- A round: four columns, then four diagonals. -/
def round (v m : Words) : Words :=
  let v := quarter v 0 4 8 12 m[0] m[1]
  let v := quarter v 1 5 9 13 m[2] m[3]
  let v := quarter v 2 6 10 14 m[4] m[5]
  let v := quarter v 3 7 11 15 m[6] m[7]
  let v := quarter v 0 5 10 15 m[8] m[9]
  let v := quarter v 1 6 11 12 m[10] m[11]
  let v := quarter v 2 7 8 13 m[12] m[13]
  quarter v 3 4 9 14 m[14] m[15]

/-- The order in which the next round takes the words of the message. -/
def permute (m : Words) : Words :=
  #v[m[2], m[6], m[3], m[10], m[7], m[0], m[4], m[13], m[1], m[11], m[12], m[5], m[9], m[14], m[15],
    m[8]]

/-- `n` rounds, the message permuted between them. -/
def rounds : (n : Nat) → (v m : Words) → Words
  | 0, v, _ => v
  | n + 1, v, m => rounds n (round v m) (permute m)

/-- The chaining value of a block of `length` bytes after the chaining value `h`. -/
def compress (h : Chain) (m : Words) (counter : UInt64) (length flags : UInt32) : Chain :=
  let iv := Chain.initial
  let v : Words :=
    #v[h[0], h[1], h[2], h[3], h[4], h[5], h[6], h[7], iv[0], iv[1], iv[2], iv[3],
      counter.toUInt32, (counter >>> 32).toUInt32, length, flags]
  let v := rounds 7 v m
  #v[v[0] ^^^ v[8], v[1] ^^^ v[9], v[2] ^^^ v[10], v[3] ^^^ v[11], v[4] ^^^ v[12], v[5] ^^^ v[13],
    v[6] ^^^ v[14], v[7] ^^^ v[15]]

/-! ## Words and bytes -/

/-- The words of a byte string, the lowest byte first, the last one filled up with zeros. -/
def words : Bytes → List UInt32
  | a :: b :: c :: d :: rest =>
    (a.toUInt32 ||| (b.toUInt32 <<< 8) ||| (c.toUInt32 <<< 16) ||| (d.toUInt32 <<< 24)) :: words rest
  | [] => []
  | [a] => [a.toUInt32]
  | [a, b] => [a.toUInt32 ||| (b.toUInt32 <<< 8)]
  | [a, b, c] => [a.toUInt32 ||| (b.toUInt32 <<< 8) ||| (c.toUInt32 <<< 16)]

/-- A block of at most 64 bytes, filled up with zeros. -/
def block (b : Bytes) : Words :=
  let ws := (words b).toArray
  Vector.ofFn fun i => ws.getD i 0

def wordBytes (w : UInt32) : Bytes :=
  [w.toUInt8, (w >>> 8).toUInt8, (w >>> 16).toUInt8, (w >>> 24).toUInt8]

/-! ## The tree -/

/-- A node of the tree before its last compression. -/
structure Pending where
  chain : Chain
  message : Words
  counter : UInt64
  length : UInt32
  flags : UInt32

/-- The chaining value of a node that is not the root. -/
def Pending.value (n : Pending) : Chain :=
  compress n.chain n.message n.counter n.length n.flags

def Pending.rootValue (n : Pending) : Chain :=
  compress n.chain n.message n.counter n.length (n.flags ||| rootNode)

/-- The node of a chunk of which the bytes `b` are left, after the chaining value `h`. -/
def leafFrom (counter : UInt64) (h : Chain) (flags : UInt32) (b : Bytes) : Pending :=
  if b.length ≤ 64 then ⟨h, block b, counter, UInt32.ofNat b.length, flags ||| chunkEnd⟩
  else leafFrom counter (compress h (block (b.take 64)) counter 64 flags) 0 (b.drop 64)
termination_by b.length
decreasing_by simp; omega

/-- The node of the chunk `b`, the one numbered `counter`. -/
def leaf (counter : Nat) (b : Bytes) : Pending :=
  leafFrom (UInt64.ofNat counter) .initial chunkStart b

/-- The nodes of the chunks of `b`, the first of them numbered `counter`. -/
def leaves (counter : Nat) (b : Bytes) : List Pending :=
  let rest := b.drop 1024
  leaf counter (b.take 1024) :: if _h : rest = [] then [] else leaves (counter + 1) rest
termination_by b.length
decreasing_by have := List.length_pos_iff.2 _h; simp [rest] at this ⊢; omega

def parent (left right : Pending) : Pending :=
  ⟨.initial, (left.value ++ right.value).cast rfl, 0, 64, parentNode⟩

/-- The nodes above neighbours; an odd last one stays. -/
def parents : List Pending → List Pending
  | left :: right :: rest => parent left right :: parents rest
  | rest => rest

theorem length_parents_le : ∀ l : List Pending, (parents l).length ≤ l.length
  | [] => by simp [parents]
  | [_] => by simp [parents]
  | _ :: _ :: rest => by have := length_parents_le rest; simp [parents]; omega

/-- The node above `first` and all of `rest`. -/
def root (first : Pending) : (rest : List Pending) → Pending
  | [] => first
  | second :: rest => root (parent first second) (parents rest)
termination_by rest => rest.length
decreasing_by have := length_parents_le rest; simp; omega

def hash (b : Bytes) : Bytes :=
  let top :=
    match leaves 0 b with
    | [] => leaf 0 b
    | first :: rest => root first rest
  top.rootValue.toList.flatMap wordBytes

theorem length_hash (b : Bytes) : (hash b).length = 32 := by
  simp [hash, List.length_flatMap, wordBytes, List.map_const']

end ErasureVault.Blake3
