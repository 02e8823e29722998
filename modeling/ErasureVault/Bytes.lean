/-
  Byte strings: what the library stores, hashes and codes.

  * `Bytes.hex` is the text of a byte string, two lower-case hexadecimal digits a byte;
  * `Bytes.littleEndian w n` are the `w` low bytes of `n`, the lowest first, and
    `Bytes.ofLittleEndian` reads them back (`ofLittleEndian_littleEndian_succ`,
    `littleEndian_ofLittleEndian`);
  * `Bytes.cut k n` cuts a byte string into `k` shards of `n` bytes, with zeros where it
    runs out (`length_cut`, `length_of_mem_cut`, `flatten_cut`);
  * `Bytes.pieces n` are the pieces of `n` bytes that a byte string falls into, the last of them
    possibly shorter (`pieces_nil`, `pieces_of_ne_nil`).
-/

namespace ErasureVault

/-- A byte string. -/
abbrev Bytes := List UInt8

namespace Bytes

/-! ## Hexadecimal text -/

/-- The lower-case hexadecimal digit of a number below sixteen. -/
def hexDigit (n : Nat) : Char :=
  if n < 10 then Char.ofNat (48 + n) else Char.ofNat (87 + n)

/-- The two digits of a byte appended to a text. -/
def pushHex (text : String) (b : UInt8) : String :=
  (text.push (hexDigit (b.toNat / 16))).push (hexDigit (b.toNat % 16))

/-- A byte string written with two hexadecimal digits a byte. -/
def hex (b : Bytes) : String :=
  b.foldl pushHex ""

/-! ## Numbers, the lowest byte first -/

/-- The `w` low bytes of `n`, the lowest first. -/
def littleEndian : (w n : Nat) → Bytes
  | 0, _ => []
  | w + 1, n => UInt8.ofNat (n % 256) :: littleEndian w (n / 256)

/-- The number whose bytes, the lowest first, are `b`. -/
def ofLittleEndian (b : Bytes) : Nat :=
  b.foldr (fun d n => d.toNat + 256 * n) 0

@[simp] theorem length_littleEndian (w n : Nat) : (littleEndian w n).length = w := by
  induction w generalizing n with
  | zero => rfl
  | succ w ih => simp [littleEndian, ih]

theorem ofLittleEndian_cons (d : UInt8) (b : Bytes) :
    ofLittleEndian (d :: b) = d.toNat + 256 * ofLittleEndian b := rfl

/-- Writing a number in one byte more reads the byte before the others. -/
theorem ofLittleEndian_littleEndian_succ (w n : Nat) :
    ofLittleEndian (littleEndian (w + 1) n)
      = n % 256 + 256 * ofLittleEndian (littleEndian w (n / 256)) := by
  rw [littleEndian, ofLittleEndian_cons, UInt8.toNat_ofNat']
  omega

/-- A byte string is the writing of the number it stands for. -/
theorem littleEndian_ofLittleEndian (b : Bytes) :
    littleEndian b.length (ofLittleEndian b) = b := by
  induction b with
  | nil => rfl
  | cons d b ih =>
    have hd : d.toNat < 256 := d.toNat_lt
    have hm : (d.toNat + 256 * ofLittleEndian b) % 256 = d.toNat := by omega
    have hq : (d.toNat + 256 * ofLittleEndian b) / 256 = ofLittleEndian b := by omega
    simp [littleEndian, ofLittleEndian_cons, hm, hq, ih]

/-! ## Shards of equal length -/

/-- The first `n` bytes of `b`, followed by zeros up to length `n`. -/
def padTo (n : Nat) (b : Bytes) : Bytes :=
  let piece := b.take n
  piece ++ List.replicate (n - piece.length) 0

/-- `k` consecutive pieces of `n` bytes, with zeros where `b` runs out. -/
def cut : (k n : Nat) → Bytes → List Bytes
  | 0, _, _ => []
  | k + 1, n, b => padTo n b :: cut k n (b.drop n)

@[simp] theorem length_padTo (n : Nat) (b : Bytes) : (padTo n b).length = n := by
  simp only [padTo, List.length_append, List.length_take, List.length_replicate]; omega

@[simp] theorem length_cut (k n : Nat) (b : Bytes) : (cut k n b).length = k := by
  induction k generalizing b with
  | zero => rfl
  | succ k ih => simp [cut, ih]

theorem length_of_mem_cut {k n : Nat} {b s : Bytes} (h : s ∈ cut k n b) : s.length = n := by
  induction k generalizing b with
  | zero => simp [cut] at h
  | succ k ih =>
    rcases List.mem_cons.1 h with rfl | h
    · simp
    · exact ih h

/-- Laid end to end, the pieces are the byte string and the zeros that fill it up. -/
theorem flatten_cut (k n : Nat) (b : Bytes) (h : b.length ≤ k * n) :
    (cut k n b).flatten = b ++ List.replicate (k * n - b.length) 0 := by
  induction k generalizing b with
  | zero => simp at h; simp [cut, h]
  | succ k ih =>
    rw [Nat.succ_mul] at h ⊢
    rw [cut, List.flatten_cons, ih _ (by simp; omega)]
    by_cases hn : b.length ≤ n
    · have hd : b.drop n = [] := List.drop_eq_nil_of_le hn
      simp only [hd, padTo, List.take_of_length_le hn, List.nil_append, List.length_nil,
        List.append_assoc, List.replicate_append_replicate]
      congr 2; omega
    · have ht : (b.take n).length = n := by simp; omega
      simp only [padTo, ht, Nat.sub_self, List.replicate_zero, List.append_nil,
        ← List.append_assoc, List.take_append_drop, List.length_drop]
      congr 2; omega

/-! ## Pieces -/

/-- The consecutive pieces of `n` bytes, the last of them possibly shorter. -/
def pieces (n : Nat) (b : Bytes) : List Bytes :=
  if n = 0 ∨ b = [] then [] else b.take n :: pieces n (b.drop n)
termination_by b.length
decreasing_by
  rename_i h
  have := List.length_pos_iff.2 fun hb => h (.inr hb)
  rw [List.length_drop]
  omega

theorem pieces_nil (n : Nat) : pieces n [] = [] := by
  rw [pieces, if_pos (.inr rfl)]

theorem pieces_of_ne_nil {n : Nat} {b : Bytes} (hn : 0 < n) (hb : b ≠ []) :
    pieces n b = b.take n :: pieces n (b.drop n) := by
  rw [pieces, if_neg (not_or.2 ⟨by omega, hb⟩)]

end Bytes

end ErasureVault
