/-
  Size records: what their four bytes say.

  * Four bytes read as a record exactly if they are its writing and it is not negative
    (`decode_eq_ok_iff`);
  * a block has a record exactly if its size fits, and the record states that size
    (`ofSize_eq_ok_iff`); records that can be read are told apart by their sizes (`ext_size`).
-/
import ErasureVault.Block.SizeRecord
import Mathlib.Algebra.Group.Nat.Defs

namespace ErasureVault

/-- What is written in `w` bytes is the number modulo `256 ^ w`. -/
theorem Bytes.ofLittleEndian_littleEndian (w n : Nat) :
    ofLittleEndian (littleEndian w n) = n % 256 ^ w := by
  induction w generalizing n with
  | zero =>
    rw [Nat.pow_zero, Nat.mod_one]
    rfl
  | succ w ih =>
    rw [ofLittleEndian_littleEndian_succ, ih, Nat.pow_succ', Nat.mod_mul]

namespace SizeRecord

/-! ## Reading -/

theorem toInt32_ofNat_ofLittleEndian_encode (r : SizeRecord) :
    (UInt32.ofNat (Bytes.ofLittleEndian r.encode)).toInt32 = r.value := by
  have hlt : r.value.toUInt32.toNat < 256 ^ byteLength := r.value.toUInt32.toNat_lt
  rw [encode, Bytes.ofLittleEndian_littleEndian, Nat.mod_eq_of_lt hlt, UInt32.ofNat_toNat,
    Int32.toInt32_toUInt32]

theorem encode_toInt32_ofLittleEndian {b : Bytes} (hb : b.length = byteLength) :
    encode ⟨(UInt32.ofNat (Bytes.ofLittleEndian b)).toInt32⟩ = b := by
  have hlt : Bytes.ofLittleEndian b < UInt32.size := by
    have h := Bytes.ofLittleEndian_littleEndian b.length (Bytes.ofLittleEndian b)
    rw [Bytes.littleEndian_ofLittleEndian] at h
    rw [h, hb]
    exact Nat.mod_lt _ (by decide)
  rw [encode, UInt32.toUInt32_toInt32, UInt32.toNat_ofNat_of_lt' hlt, ← hb]
  exact Bytes.littleEndian_ofLittleEndian b

/-- **Bytes read as a record exactly if they are its writing**, and it is not negative. -/
theorem decode_eq_ok_iff {b : Bytes} {r : SizeRecord} :
    decode b = .ok r ↔ ¬ r.value < 0 ∧ r.encode = b := by
  constructor
  · intro h
    unfold decode at h
    split at h
    · simp at h
    · next hb =>
      have hb : b.length = byteLength := Decidable.not_not.1 hb
      simp only at h
      split at h
      · simp at h
      · next hneg =>
        obtain rfl := Except.ok.inj h
        exact ⟨hneg, encode_toInt32_ofLittleEndian hb⟩
  · rintro ⟨hneg, rfl⟩
    unfold decode
    rw [if_neg (Decidable.not_not.2 r.length_encode)]
    simp only [toInt32_ofNat_ofLittleEndian_encode]
    rw [if_neg hneg]

/-! ## Sizes -/

theorem toInt_of_not_neg {r : SizeRecord} (h : ¬ r.value < 0) : r.value.toInt = r.size := by
  rw [Int32.lt_iff_toInt_lt] at h
  have h0 : (0 : Int32).toInt = 0 := rfl
  unfold size
  omega

/-- Records that are not negative differ in the sizes they state. -/
theorem ext_size {r r' : SizeRecord} (h : ¬ r.value < 0) (h' : ¬ r'.value < 0)
    (hs : r.size = r'.size) : r = r' := by
  obtain ⟨v⟩ := r
  obtain ⟨v'⟩ := r'
  refine congrArg mk (Int32.toInt_inj.1 ?_)
  rw [show v.toInt = _ from toInt_of_not_neg h, show v'.toInt = _ from toInt_of_not_neg h', hs]

theorem size_le_maxSize (r : SizeRecord) : r.size ≤ maxSize := by
  have := r.value.toInt_lt
  unfold size maxSize
  omega

/-- **A block has a record exactly if its size fits**, and the record states it. -/
theorem ofSize_eq_ok_iff {n : Nat} {r : SizeRecord} :
    ofSize n = .ok r ↔ ¬ r.value < 0 ∧ r.size = n := by
  have hof (h : n ≤ maxSize) : (Int32.ofNat n).toInt = n := by
    unfold maxSize at h
    exact Int32.toInt_ofNat_of_lt (by omega)
  constructor
  · intro h
    unfold ofSize at h
    split at h
    · next hn =>
      obtain rfl := Except.ok.inj h
      have h0 : (0 : Int32).toInt = 0 := rfl
      refine ⟨?_, ?_⟩
      · rw [Int32.lt_iff_toInt_lt, hof hn]
        omega
      · rw [size, hof hn]
        omega
    · simp at h
  · rintro ⟨hneg, rfl⟩
    have hn := r.size_le_maxSize
    unfold ofSize
    rw [if_pos hn]
    obtain ⟨v⟩ := r
    refine congrArg (Except.ok ∘ mk) (Int32.toInt_inj.1 ?_)
    rw [hof hn, show v.toInt = _ from toInt_of_not_neg hneg]

end SizeRecord

end ErasureVault
