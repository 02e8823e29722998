/-
  The files of the slots, and how far they must be read.

  * `Geometry.fileLength g n t` is what the shards of `t` bytes take, in blocks of `n` bytes: it is
    the sum over the pieces that the bytes fall into (`sum_shardLength_pieces`), it grows with `t`
    and is never more (`fileLength_mono`, `fileLength_le`);
  * in signed numbers, `ShardFile.size` is that length (`size_natCast`), and `ShardFile.offset` the
    least of the whole file and the blocks that a range touches, with one more (`offset_natCast`);
  * hence the file of a slot has the length that is computed, and what is to be read for a range
    holds the shards of every block that the range touches, and hardly more (`file_exact`).
-/
import ErasureVault.Proofs.Pieces

namespace ErasureVault

namespace Bytes

/-- The pieces of the first bytes are the first pieces. -/
theorem pieces_take {n : ℕ} (hn : 0 < n) (m : ℕ) (b : Bytes) :
    pieces n (b.take (m * n)) = (pieces n b).take m := by
  induction m generalizing b with
  | zero => rw [Nat.zero_mul, List.take_zero, List.take_zero, pieces_nil]
  | succ m ih =>
    by_cases hb : b = []
    · rw [hb, List.take_nil, pieces_nil, List.take_nil]
    · have hne : b.take ((m + 1) * n) ≠ [] := by
        rw [Nat.succ_mul, ne_eq, List.take_eq_nil_iff]
        rintro (h | h)
        · omega
        · exact hb h
      rw [pieces_of_ne_nil hn hne, pieces_of_ne_nil hn hb, List.take_succ_cons, ← ih,
        List.take_take, List.drop_take, Nat.succ_mul, Nat.add_sub_cancel,
        Nat.min_eq_left (Nat.le_add_left ..)]

end Bytes

namespace Geometry

variable {g : Geometry} {n t t' : ℕ}

/-! ## Lengths -/

theorem shardLength_mono (h : t ≤ t') : g.shardLength t ≤ g.shardLength t' :=
  Nat.div_le_div_right (by omega)

theorem shardLength_le (g : Geometry) (t : ℕ) : g.shardLength t ≤ t := by
  have hk := g.data_pos
  refine Nat.le_of_lt_succ ((Nat.div_lt_iff_lt_mul hk).2 ?_)
  have := Nat.le_mul_of_pos_right t hk
  rw [Nat.succ_mul]
  omega

/-- What the shards of `t` bytes take in the file of a slot, in blocks of `n` bytes. -/
def fileLength (g : Geometry) (n t : ℕ) : ℕ :=
  t / n * g.shardLength n + g.shardLength (t % n)

theorem fileLength_zero (g : Geometry) (n : ℕ) : g.fileLength n 0 = 0 := by
  rw [fileLength, Nat.zero_div, Nat.zero_mod, Nat.zero_mul, Nat.zero_add]
  exact shardLength_eq_zero_iff.2 rfl

/-- One block more. -/
theorem fileLength_add (hn : 0 < n) (t : ℕ) :
    g.fileLength n (t + n) = g.shardLength n + g.fileLength n t := by
  rw [fileLength, fileLength, Nat.add_div_right t hn, Nat.add_mod_right, Nat.succ_mul]
  omega

theorem fileLength_of_lt (h : t < n) : g.fileLength n t = g.shardLength t := by
  rw [fileLength, Nat.div_eq_of_lt h, Nat.mod_eq_of_lt h, Nat.zero_mul, Nat.zero_add]

theorem fileLength_mul (hn : 0 < n) (m : ℕ) : g.fileLength n (m * n) = m * g.shardLength n := by
  rw [fileLength, Nat.mul_div_cancel m hn, Nat.mul_mod_left, shardLength_eq_zero_iff.2 rfl,
    Nat.add_zero]

/-- All blocks take no less than the complete ones, and no more than one block besides. -/
theorem fileLength_bounds (hn : 0 < n) (t : ℕ) :
    t / n * g.shardLength n ≤ g.fileLength n t ∧
      g.fileLength n t ≤ t / n * g.shardLength n + g.shardLength n :=
  ⟨Nat.le_add_right .., Nat.add_le_add_left (shardLength_mono (Nat.mod_lt t hn).le) _⟩

theorem fileLength_mono (hn : 0 < n) (h : t ≤ t') : g.fileLength n t ≤ g.fileLength n t' := by
  rcases (Nat.div_le_div_right h : t / n ≤ t' / n).eq_or_lt with hq | hq
  · -- as many complete blocks
    have hr : t % n ≤ t' % n := by
      have ht := Nat.div_add_mod t n
      have ht' := Nat.div_add_mod t' n
      rw [hq] at ht
      omega
    rw [fileLength, fileLength, hq]
    exact Nat.add_le_add_left (shardLength_mono hr) _
  · calc g.fileLength n t
      _ ≤ (t / n + 1) * g.shardLength n := by
        rw [Nat.succ_mul]
        exact (fileLength_bounds hn t).2
      _ ≤ t' / n * g.shardLength n := Nat.mul_le_mul_right _ hq
      _ ≤ g.fileLength n t' := (fileLength_bounds hn t').1

theorem fileLength_le (g : Geometry) (n t : ℕ) : g.fileLength n t ≤ t := by
  calc g.fileLength n t
    _ ≤ t / n * n + t % n :=
      Nat.add_le_add (Nat.mul_le_mul_left _ (g.shardLength_le n)) (g.shardLength_le _)
    _ = t := Nat.div_add_mod' t n

/-- **The file holds the shards of the pieces**, one after the other. -/
theorem sum_shardLength_pieces (hn : 0 < n) (b : Bytes) :
    ((b.pieces n).map fun p => g.shardLength p.length).sum = g.fileLength n b.length := by
  fun_induction Bytes.pieces n b with
  | case1 b h =>
    rcases h with rfl | rfl
    · exact absurd hn (Nat.lt_irrefl 0)
    · exact (fileLength_zero g n).symm
  | case2 b h ih =>
    rw [List.map_cons, List.sum_cons, ih, List.length_take, List.length_drop]
    rcases Nat.lt_or_ge b.length n with hlt | hle
    · rw [Nat.min_eq_right hlt.le, Nat.sub_eq_zero_of_le hlt.le, fileLength_zero, Nat.add_zero,
        fileLength_of_lt hlt]
    · rw [Nat.min_eq_left hle, ← fileLength_add hn, Nat.sub_add_cancel hle]

theorem length_getD_encode {slot : ℕ} (hslot : slot < g.total) (b : Bytes) :
    ((g.encode b).getD slot []).length = g.shardLength b.length :=
  length_of_mem_encode (List.mem_of_getElem? (g.getElem?_encode_eq_getD b hslot))

end Geometry

open ErasureVault.Geometry

namespace ShardFile

variable {f : ShardFile} {slot : ℕ}

/-! ## Contents -/

theorem length_contents (hf : 0 < f.blockSize) (hslot : slot < f.geometry.total) (b : Bytes) :
    (f.contents slot b).length = f.geometry.fileLength f.blockSize.toNat b.length := by
  rw [← sum_shardLength_pieces (by omega), contents, List.length_flatMap]
  simp only [length_getD_encode hslot]

/-- What the file holds of the first blocks is at its front. -/
theorem contents_take (hf : 0 < f.blockSize) (m : ℕ) (b : Bytes) :
    f.contents slot (b.take (m * f.blockSize.toNat)) <+: f.contents slot b := by
  rw [contents, contents, Bytes.pieces_take (by omega)]
  conv_rhs => rw [← List.take_append_drop m (b.pieces f.blockSize.toNat), List.flatMap_append]
  exact List.prefix_append ..

/-! ## Signed lengths -/

theorem shardSize_eq (hf : 0 < f.blockSize) :
    f.shardSize = f.geometry.shardLength f.blockSize.toNat := by
  rw [← ceilDiv_natCast, Int.toNat_of_nonneg hf.le]
  rfl

theorem size_natCast (hf : 0 < f.blockSize) (t : ℕ) :
    f.size t = f.geometry.fileLength f.blockSize.toNat t := by
  rw [size]
  split
  · next h0 => rw [Nat.cast_eq_zero.1 h0, fileLength_zero, Nat.cast_zero]
  · obtain ⟨n, hn⟩ := Int.eq_ofNat_of_zero_le hf.le
    rw [if_neg (by omega), if_neg (by omega), shardSize_eq hf, hn, Int.toNat_natCast,
      ← Int.ofNat_tdiv, ← Int.ofNat_tmod, ceilDiv_natCast, fileLength, Nat.cast_add, Nat.cast_mul]

theorem offset_natCast (hf : 0 < f.blockSize) (start length total : ℕ) :
    f.offset start length total =
      (min (f.geometry.fileLength f.blockSize.toNat total)
        (((start + length) / f.blockSize.toNat + 1) *
          f.geometry.shardLength f.blockSize.toNat) : ℕ) := by
  obtain ⟨n, hn⟩ := Int.eq_ofNat_of_zero_le hf.le
  rw [offset, if_neg (by omega)]
  dsimp only
  rw [size_natCast hf, shardSize_eq hf, hn, Int.toNat_natCast, ← Nat.cast_add, ← Int.ofNat_tdiv,
    ← Nat.cast_mul, ← Nat.cast_add, Nat.succ_mul]
  split
  · next hlt => rw [Nat.min_eq_left (by omega)]
  · next hle => rw [Nat.min_eq_right (by omega)]

/-- The blocks that a range touches, and no more than one besides. -/
theorem fileLength_le_offset (hf : 0 < f.blockSize) {start length total : ℕ}
    (h : start + length ≤ total) :
    let n := f.blockSize.toNat
    let offset := min (f.geometry.fileLength n total)
      (((start + length) / n + 1) * f.geometry.shardLength n)
    f.geometry.fileLength n (start + length) ≤ offset ∧
      offset ≤ f.geometry.fileLength n (start + length) + f.geometry.shardLength n := by
  intro n offset
  have hn : 0 < n := by omega
  obtain ⟨hge, hle⟩ := fileLength_bounds (g := f.geometry) hn (start + length)
  refine ⟨Nat.le_min.2 ⟨fileLength_mono hn h, ?_⟩, (Nat.min_le_right ..).trans ?_⟩
  · rwa [Nat.succ_mul]
  · rw [Nat.succ_mul]
    exact Nat.add_le_add_right hge _

/-- The length of the file is the sum over the blocks of the stream. -/
theorem size_eq_sum (hf : 0 < f.blockSize) (hslot : slot < f.geometry.total) (b : Bytes) :
    f.size b.length = ((b.pieces f.blockSize.toNat).map fun p =>
      (((f.geometry.encode p).getD slot []).length : ℤ)).sum := by
  rw [size_natCast hf, ← sum_shardLength_pieces (by omega)]
  simp only [length_getD_encode hslot]
  rw [Nat.cast_list_sum, List.map_map]
  rfl

theorem size_mono (hf : 0 < f.blockSize) {total total' : ℤ} (h0 : 0 ≤ total)
    (h : total ≤ total') : f.size total ≤ f.size total' := by
  lift total to ℕ using h0
  lift total' to ℕ using by omega
  rw [size_natCast hf, size_natCast hf]
  exact_mod_cast fileLength_mono (by omega) (Nat.cast_le.1 h)

theorem size_bounds (hf : 0 < f.blockSize) {total : ℤ} (h0 : 0 ≤ total) :
    0 ≤ f.size total ∧ f.size total ≤ total := by
  lift total to ℕ using h0
  rw [size_natCast hf]
  exact ⟨Int.natCast_nonneg _, by exact_mod_cast fileLength_le ..⟩

theorem offset_bounds (hf : 0 < f.blockSize) {start length total : ℤ} (hstart : 0 ≤ start)
    (hlength : 0 ≤ length) (h : start + length ≤ total) :
    f.size (start + length) ≤ f.offset start length total ∧
      f.offset start length total ≤
        min (f.size total) (f.size (start + length) + f.shardSize) := by
  lift start to ℕ using hstart
  lift length to ℕ using hlength
  lift total to ℕ using by omega
  have hend : start + length ≤ total := by exact_mod_cast h
  obtain ⟨hge, hle⟩ := fileLength_le_offset hf hend
  rw [← Nat.cast_add, size_natCast hf, size_natCast hf, offset_natCast hf, shardSize_eq hf]
  exact ⟨by exact_mod_cast hge, by exact_mod_cast Nat.le_min.2 ⟨Nat.min_le_left .., hle⟩⟩

/-- **What is to be read holds the shards of every block that the range touches.** -/
theorem contents_prefix_take (hf : 0 < f.blockSize) (hslot : slot < f.geometry.total) (b : Bytes)
    {start length j : ℕ} (hj : j * f.blockSize.toNat < start + length) :
    f.contents slot (b.take ((j + 1) * f.blockSize.toNat)) <+:
      (f.contents slot b).take (f.offset start length b.length).toNat := by
  have hn : 0 < f.blockSize.toNat := by omega
  have hle : j ≤ (start + length) / f.blockSize.toNat := (Nat.le_div_iff_mul_le hn).2 hj.le
  rw [List.prefix_take_iff, offset_natCast hf, Int.toNat_natCast, length_contents hf hslot,
    List.length_take]
  refine ⟨contents_take hf (j + 1) b, Nat.le_min.2 ⟨?_, ?_⟩⟩
  · exact fileLength_mono hn (Nat.min_le_right ..)
  · calc f.geometry.fileLength f.blockSize.toNat (min ((j + 1) * f.blockSize.toNat) b.length)
      _ ≤ f.geometry.fileLength f.blockSize.toNat ((j + 1) * f.blockSize.toNat) :=
        fileLength_mono hn (Nat.min_le_left ..)
      _ = (j + 1) * f.geometry.shardLength f.blockSize.toNat := fileLength_mul hn _
      _ ≤ _ := Nat.mul_le_mul_right _ (Nat.succ_le_succ hle)

/-- **The file of a slot has the length that is computed**, the sum over the blocks of a stream, all
of the block size but the last. That grows with the stream and is never more. What is to be read for
a range is at least what the stream up to its end takes, no more than the file, and no more than one
shard besides; it holds the shards of every block that the range touches. -/
theorem file_exact (f : ShardFile) (hf : 0 < f.blockSize) :
    let n := f.blockSize.toNat
    (∀ b : Bytes, (b.pieces n).flatten = b ∧ (∀ p ∈ b.pieces n, 0 < p.length ∧ p.length ≤ n) ∧
      ∀ p ∈ (b.pieces n).dropLast, p.length = n) ∧
    (∀ (b : Bytes) (slot : ℕ), slot < f.geometry.total →
      f.size b.length =
        ((b.pieces n).map fun p => (((f.geometry.encode p).getD slot []).length : ℤ)).sum ∧
      (f.contents slot b).length = f.size b.length) ∧
    (∀ total total' : ℤ, 0 ≤ total → total ≤ total' → f.size total ≤ f.size total') ∧
    (∀ total : ℤ, 0 ≤ total → 0 ≤ f.size total ∧ f.size total ≤ total) ∧
    ∀ start length total : ℤ, 0 ≤ start → 0 ≤ length → start + length ≤ total →
      f.size (start + length) ≤ f.offset start length total ∧
      f.offset start length total ≤
        min (f.size total) (f.size (start + length) + f.shardSize) ∧
      ∀ (b : Bytes) (slot : ℕ), b.length = total → slot < f.geometry.total →
        ∀ j : ℕ, j * n < start + length → f.contents slot (b.take ((j + 1) * n)) <+:
          (f.contents slot b).take (f.offset start length total).toNat := by
  intro n
  have hn : 0 < n := by omega
  refine ⟨fun b => ⟨Bytes.flatten_pieces hn b, fun p => Bytes.length_of_mem_pieces,
      fun p => Bytes.length_of_mem_dropLast_pieces⟩,
    fun b slot hslot => ⟨size_eq_sum hf hslot b, ?_⟩, fun total total' => size_mono hf,
    fun total => size_bounds hf, fun start length total hstart hlength h => ?_⟩
  · rw [length_contents hf hslot, size_natCast hf]
  · obtain ⟨hge, hle⟩ := offset_bounds hf hstart hlength h
    refine ⟨hge, hle, fun b slot hb hslot j hj => ?_⟩
    lift start to ℕ using hstart
    lift length to ℕ using hlength
    rw [← hb]
    exact contents_prefix_take hf hslot b (by exact_mod_cast hj)

/-- Seven bytes in blocks of three, of which the fourth to the sixth are to be read. -/
theorem file_of_sevenBytes :
    let f : ShardFile := ⟨.twoAndOne, 3⟩
    let b : Bytes := [1, 2, 3, 4, 5, 6, 7]
    0 < f.blockSize ∧ (f.contents 2 b).length = f.size 7 ∧ f.size 7 = 5 ∧ f.size 6 ≤ f.size 7 ∧
      f.size 6 ≤ f.offset 3 3 7 ∧ f.offset 3 3 7 = 5 ∧
      f.contents 2 [1, 2, 3, 4, 5, 6] <+: (f.contents 2 b).take 5 := by
  intro f b
  have hf : 0 < f.blockSize := by decide
  have hsize : f.size 7 = 5 := by decide
  have hoffset : f.offset 3 3 7 = 5 := by decide
  obtain ⟨-, hfile, hmono, -, hread⟩ := file_exact f hf
  obtain ⟨hge, -, hcovers⟩ := hread 3 3 7 (by decide) (by decide) (by decide)
  have hprefix := hcovers b 2 rfl (by decide) 1 (by decide)
  rw [hoffset] at hprefix
  exact ⟨hf, (hfile b 2 (by decide)).2, hsize, hmono 6 7 (by decide) (by decide), hge, hoffset,
    hprefix⟩

end ShardFile

end ErasureVault
