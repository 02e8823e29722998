/-
  Size records: the sizes they are written for, and the sizes that are read.

  * The four bytes of a record are its number modulo `2 ^ 32`, the lowest byte first
    (`ofLittleEndian_encode`);
  * a size has a record exactly if it is not too large (`exists_ofSize_iff`), and is read from
    exactly the bytes that are written for it (`exists_decode_iff`);
  * a block whose size has no record is written to no slot (`record_exact`).
-/
import ErasureVault.Proofs.Record
import ErasureVault.Proofs.Rejection

namespace ErasureVault.SizeRecord

/-! ## Bytes -/

/-- The bytes of a record are its number modulo `2 ^ 32`, the lowest first. -/
theorem ofLittleEndian_encode (r : SizeRecord) :
    (Bytes.ofLittleEndian r.encode : ℤ) = r.value.toInt % 2 ^ 32 := by
  have hlt : r.value.toUInt32.toNat < 2 ^ 32 := r.value.toUInt32.toNat_lt
  have hbytes : Bytes.ofLittleEndian r.encode = r.value.toUInt32.toNat := by
    rw [encode, Bytes.ofLittleEndian_littleEndian]
    exact Nat.mod_eq_of_lt hlt
  have hvalue : r.value.toInt = Int.bmod r.value.toUInt32.toNat (2 ^ 32) :=
    BitVec.toInt_eq_toNat_bmod _
  calc (Bytes.ofLittleEndian r.encode : ℤ)
      = r.value.toUInt32.toNat := by rw [hbytes]
    _ = r.value.toUInt32.toNat % 2 ^ 32 := (Int.emod_eq_of_lt (by omega) (by omega)).symm
    _ = r.value.toInt % 2 ^ 32 := by rw [hvalue]; exact Int.bmod_emod.symm

theorem decode_eq_ok_iff_toInt {b : Bytes} {r : SizeRecord} :
    decode b = .ok r ↔ 0 ≤ r.value.toInt ∧ r.encode = b := by
  have h0 : (0 : Int32).toInt = 0 := rfl
  rw [decode_eq_ok_iff, Int32.lt_iff_toInt_lt, h0, Int.not_lt]

/-! ## Sizes -/

theorem exists_ofSize_iff {n : ℕ} : (∃ r, ofSize n = .ok r) ↔ n ≤ maxSize := by
  unfold ofSize
  split <;> simp [*]

/-- **A size is read from exactly the bytes that are written for it.** -/
theorem exists_decode_iff {b : Bytes} {n : ℕ} :
    (∃ r, decode b = .ok r ∧ r.size = n) ↔ ∃ r, ofSize n = .ok r ∧ r.encode = b := by
  refine exists_congr fun r => ?_
  rw [decode_eq_ok_iff, ofSize_eq_ok_iff]
  exact and_right_comm

/-- The record of a size is read, and states that size. -/
theorem decode_of_ofSize {n : ℕ} {r : SizeRecord} (h : ofSize n = .ok r) :
    decode r.encode = .ok r ∧ r.size = n := by
  obtain ⟨hneg, hsize⟩ := ofSize_eq_ok_iff.1 h
  exact ⟨decode_eq_ok_iff.2 ⟨hneg, rfl⟩, hsize⟩

/-- Records that are written alike are of one size. -/
theorem size_eq_of_encode_eq {n n' : ℕ} {r r' : SizeRecord} (h : ofSize n = .ok r)
    (h' : ofSize n' = .ok r') (hencode : r.encode = r'.encode) : n = n' := by
  obtain ⟨hread, hsize⟩ := decode_of_ofSize h
  obtain ⟨hread', hsize'⟩ := decode_of_ofSize h'
  rw [hencode, hread'] at hread
  rw [← hsize, ← hsize', Except.ok.inj hread]

/-- **Records say exactly what sizes were written.** Bytes are read as a record exactly if it is not
negative and they are its writing, which is four bytes long, the lowest first. A size has a record
exactly if it is below `2 ^ 31`, and it is read from the bytes of that record and from no others, so
that different sizes are written differently. A larger block is refused, and no slot is called. -/
theorem record_exact :
    (∀ b r, decode b = .ok r ↔ 0 ≤ r.value.toInt ∧ r.encode = b) ∧
    (∀ r : SizeRecord, r.encode.length = 4 ∧
      (Bytes.ofLittleEndian r.encode : ℤ) = r.value.toInt % 2 ^ 32) ∧
    (∀ n, (∃ r, ofSize n = .ok r) ↔ n ≤ 2 ^ 31 - 1) ∧
    (∀ n r, ofSize n = .ok r → decode r.encode = .ok r ∧ r.size = n) ∧
    (∀ b n, (∃ r, decode b = .ok r ∧ r.size = n) ↔ ∃ r, ofSize n = .ok r ∧ r.encode = b) ∧
    (∀ n n' r r', ofSize n = .ok r → ofSize n' = .ok r' → n ≠ n' → r.encode ≠ r'.encode) ∧
    ∀ (token : Token) (b : Block) (c : Cluster), 2 ^ 31 - 1 < b.size →
      let written := (Cluster.put token b).run c
      written.1 = .error (.blockTooLarge b.size (2 ^ 31 - 1)) ∧
        written.2.2.slots = c.slots ∧ written.2.2.nodes = c.nodes := by
  refine ⟨fun b r => decode_eq_ok_iff_toInt, fun r => ⟨r.length_encode, ofLittleEndian_encode r⟩,
    fun n => exists_ofSize_iff, fun n r => decode_of_ofSize, fun b n => exists_decode_iff,
    fun n n' r r' h h' hne hencode => hne (size_eq_of_encode_eq h h' hencode),
    fun token b c hb => ?_⟩
  exact (Op.Rejected.put token hb).run

/-- The size 4096 is read from four bytes, and `2 ^ 31` zeros are not written to three slots. -/
theorem record_of_twoSizes :
    let b : Block := ⟨.sha256, List.replicate (2 ^ 31) 0⟩
    (∃ r, ofSize 4096 = .ok r ∧ r.encode = [0, 16, 0, 0] ∧ decode [0, 16, 0, 0] = .ok r) ∧
    2 ^ 31 - 1 < b.size ∧
      let written := (Cluster.put .never b).run Cluster.spareNode
      written.1 = .error (.blockTooLarge b.size (2 ^ 31 - 1)) ∧
        written.2.2.slots = Cluster.spareNode.slots ∧
        written.2.2.nodes = Cluster.spareNode.nodes := by
  intro b
  obtain ⟨-, -, -, hread, -, -, hput⟩ := record_exact
  have hencode : encode ⟨4096⟩ = [0, 16, 0, 0] := by decide
  have hof : ofSize 4096 = .ok ⟨4096⟩ := by decide
  have hlarge : 2 ^ 31 - 1 < b.size := by
    rw [show b.size = 2 ^ 31 from List.length_replicate]
    omega
  exact ⟨⟨_, hof, hencode, hencode ▸ (hread _ _ hof).1⟩, hlarge,
    hput .never b Cluster.spareNode hlarge⟩

end ErasureVault.SizeRecord
