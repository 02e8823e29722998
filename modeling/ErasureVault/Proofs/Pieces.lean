/-
  The length of shards, as they are written and as they are read.

  * A block falls into as many pieces as there are shards to fill, or fewer; filled up with zeros,
    they are its data shards (`map_padTo_pieces`), so that a block is always written
    (`encodeChecked_eq_encode`);
  * the signed quotient by which a reader knows the length of a shard is the length that was written
    (`shardSize_withBlockSize`). `Cluster.collectByLayout` takes it from the layout of the codec,
    and is `Cluster.collect` (`collectByLayout_eq_collect`);
  * hence every shard that was written has the length for which shards are screened, and the data
    shards are the block and the zeros that fill it up (`layout_exact`).
-/
import ErasureVault.Proofs.Check

namespace ErasureVault

/-! ## Pieces -/

namespace Bytes

variable {n : ℕ} {b : Bytes}

theorem flatten_pieces (hn : 0 < n) (b : Bytes) : (pieces n b).flatten = b := by
  fun_induction pieces n b with
  | case1 b h =>
    rcases h with rfl | rfl
    · exact absurd hn (Nat.lt_irrefl 0)
    · rfl
  | case2 b h ih => rw [List.flatten_cons, ih, List.take_append_drop]

theorem length_of_mem_pieces {p : Bytes} (h : p ∈ pieces n b) : 0 < p.length ∧ p.length ≤ n := by
  fun_induction pieces n b with
  | case1 => cases h
  | case2 b hne ih =>
    rcases List.mem_cons.1 h with rfl | h
    · have hpos := List.length_pos_iff.2 fun hb => hne (.inr hb)
      rw [List.length_take]
      omega
    · exact ih h

/-- Only the last piece is shorter than the others. -/
theorem length_of_mem_dropLast_pieces {p : Bytes} (h : p ∈ (pieces n b).dropLast) :
    p.length = n := by
  fun_induction pieces n b with
  | case1 => cases h
  | case2 b hne ih =>
    by_cases hrest : pieces n (b.drop n) = []
    · rw [hrest] at h
      cases h
    · rw [List.dropLast_cons_of_ne_nil hrest] at h
      rcases List.mem_cons.1 h with rfl | h
      · have hdrop : b.drop n ≠ [] := fun hb => hrest (by rw [hb, pieces_nil])
        rw [List.length_take, Nat.min_eq_left]
        exact Nat.le_of_not_le fun hle => hdrop (List.drop_eq_nil_of_le hle)
      · exact ih h

theorem cut_nil (k n : ℕ) : cut k n [] = List.replicate k (List.replicate n 0) := by
  induction k with
  | zero => rfl
  | succ k ih => rw [cut, List.drop_nil, ih, List.replicate_succ, padTo, List.take_nil]; rfl

theorem padTo_take (n : ℕ) (b : Bytes) : padTo n (b.take n) = padTo n b := by
  rw [padTo, padTo, List.take_take, Nat.min_self]

/-- The pieces are no more than the shards that have room for the byte string. -/
theorem length_pieces_le {k : ℕ} (h : b.length ≤ k * n) : (pieces n b).length ≤ k := by
  induction k generalizing b with
  | zero =>
    rw [Nat.zero_mul] at h
    rw [List.length_eq_zero_iff.1 (Nat.le_zero.1 h), pieces_nil]
    exact Nat.le_refl 0
  | succ k ih =>
    rw [Nat.succ_mul] at h
    rw [pieces]
    split
    · exact Nat.zero_le _
    · rw [List.length_cons]
      exact Nat.succ_le_succ (ih (by rw [List.length_drop]; omega))

/-- **Pieces that are filled up with zeros, and shards of zeros where they run out**, are what a
byte string is cut into. -/
theorem map_padTo_pieces {k : ℕ} (hn : 0 < n) (h : b.length ≤ k * n) :
    (pieces n b).map (padTo n) ++ List.replicate (k - (pieces n b).length) (List.replicate n 0) =
      cut k n b := by
  induction k generalizing b with
  | zero =>
    rw [Nat.zero_mul] at h
    rw [List.length_eq_zero_iff.1 (Nat.le_zero.1 h), pieces_nil]
    rfl
  | succ k ih =>
    by_cases hb : b = []
    · rw [hb, pieces_nil, cut_nil]
      rfl
    · rw [Nat.succ_mul] at h
      rw [pieces_of_ne_nil hn hb, List.map_cons, List.cons_append, List.length_cons,
        Nat.add_sub_add_right, ih (by rw [List.length_drop]; omega), padTo_take, cut]

end Bytes

/-! ## Writing -/

namespace Geometry

variable {g : Geometry}

/-- A share rounded up is the quotient, and one more if something is left. -/
theorem shardLength_eq_div (g : Geometry) (size : ℕ) :
    g.shardLength size = size / g.data + if size % g.data = 0 then 0 else 1 := by
  have hk := g.data_pos
  have hmod := Nat.mod_lt size hk
  have hsplit : size + g.data - 1 = g.data * (size / g.data) + (size % g.data + g.data - 1) := by
    have := Nat.div_add_mod size g.data
    omega
  rw [shardLength, hsplit, Nat.mul_add_div hk]
  congr 1
  split
  · next h0 => exact Nat.div_eq_of_lt (by omega)
  · next h0 => exact (Nat.div_eq_iff hk).2 (by omega)

/-- The signed quotient, rounded up, of a size that is not negative. -/
theorem ceilDiv_natCast (g : Geometry) (size : ℕ) : ceilDiv size g.data = g.shardLength size := by
  have hk := g.data_pos
  have hmod : (size : ℤ).tmod g.data ≠ 0 ↔ ¬ size % g.data = 0 := by
    rw [← Int.ofNat_tmod]
    omega
  have hne : ¬ (g.data : ℤ) = 0 := by omega
  have hneg : ¬ (g.data : ℤ) < 0 := by omega
  rw [ceilDiv, if_neg hne, if_neg hneg, shardLength_eq_div]
  dsimp only
  rw [← Int.ofNat_tdiv]
  by_cases h0 : size % g.data = 0
  · rw [if_pos h0, if_neg fun h => hmod.1 h.2 h0, Nat.add_zero]
  · have hpos : 0 < size := Nat.pos_of_ne_zero fun h => h0 (by rw [h, Nat.zero_mod])
    rw [if_neg h0, if_pos ⟨by omega, hmod.2 h0⟩, Nat.cast_add, Nat.cast_one]

/-- All shards of the empty block are empty. -/
theorem encode_nil (g : Geometry) : g.encode [] = List.replicate g.total [] := by
  refine List.eq_replicate_iff.2 ⟨length_encode g [], fun s hs => List.length_eq_zero_iff.1 ?_⟩
  rw [length_of_mem_encode hs]
  exact shardLength_eq_zero_iff.2 rfl

/-- The data shards of a block, with shards of zeros that make room for the parity. -/
def withRoom (g : Geometry) (b : Bytes) : List Bytes :=
  g.dataShards b ++ List.replicate g.parity (List.replicate (g.shardLength b.length) 0)

theorem length_withRoom (g : Geometry) (b : Bytes) : (g.withRoom b).length = g.total := by
  simp [withRoom, total]

theorem length_of_mem_withRoom {b s : Bytes} (h : s ∈ g.withRoom b) :
    s.length = g.shardLength b.length := by
  rcases List.mem_append.1 h with h | h
  · exact length_of_mem_dataShards h
  · rw [List.eq_of_mem_replicate h, List.length_replicate]

theorem length_headD_withRoom (g : Geometry) (b : Bytes) :
    ((g.withRoom b).headD []).length = g.shardLength b.length :=
  length_headD (ne_nil_of_length (length_withRoom g b)) fun _ => length_of_mem_withRoom

/-- Pieces that are filled up, and shards of zeros for all other slots. -/
theorem filled_pieces {b : Bytes} (hb : b ≠ []) :
    let n := g.shardLength b.length
    let filled := (b.pieces n).map (Bytes.padTo n)
    filled.take g.total ++ List.replicate (g.total - filled.length) (List.replicate n 0) =
      g.withRoom b := by
  intro n filled
  have hpos : 0 < n := Nat.pos_of_ne_zero fun h0 =>
    hb (List.length_eq_zero_iff.1 (shardLength_eq_zero_iff.1 h0))
  have hroom : b.length ≤ g.data * n := g.le_mul_shardLength b.length
  have hlen : filled.length = (b.pieces n).length := List.length_map _
  have hfew : (b.pieces n).length ≤ g.data := Bytes.length_pieces_le hroom
  have hlt := g.data_lt_total
  -- as many shards of zeros as fill the data slots, and as many as there is parity
  have hzeros : List.replicate (g.total - filled.length) (List.replicate n (0 : UInt8)) =
      List.replicate (g.data - (b.pieces n).length) (List.replicate n 0) ++
        List.replicate g.parity (List.replicate n 0) := by
    rw [List.replicate_append_replicate, hlen, total]
    congr 1
    omega
  rw [List.take_of_length_le (by omega), hzeros, ← List.append_assoc,
    Bytes.map_padTo_pieces hpos hroom]
  rfl

theorem ofShards?_withRoom {b : Bytes} (hb : b ≠ []) :
    CodingFault.ofShards? g.total (g.withRoom b) = none := by
  have hhead := length_headD_withRoom g b
  refine ofShards?_of_sameShape (sameShape_iff.2 ⟨length_withRoom g b, fun s hs =>
    (length_of_mem_withRoom hs).trans hhead.symm⟩) fun h0 => ?_
  rw [h0, List.length_nil] at hhead
  exact hb (List.length_eq_zero_iff.1 (shardLength_eq_zero_iff.1 hhead.symm))

end Geometry

open ErasureVault.Geometry

namespace Codec

/-- **Every block is written**, piece by piece, as the shards of its code. -/
theorem encodeChecked_eq_encode (c : Codec) (b : Bytes) :
    c.encodeChecked b = (.ok (c.encode b).1, (c.encode b).2) := by
  rw [encodeChecked, encode]
  by_cases hb : b = []
  · subst hb
    have hsame : c.after false = c := by simp [after]
    rw [if_pos rfl, encode_nil, List.isEmpty_nil, Bool.not_true, hsame]
  · have hneeded : (!b.isEmpty) = true := by simp [hb]
    have hdata : (c.geometry.withRoom b).take c.geometry.data = c.geometry.dataShards b :=
      List.take_left' (length_dataShards ..)
    rw [if_neg hb, ← shardLength_eq_div, hneeded]
    dsimp only
    rw [filled_pieces hb, CodingFault.ofCounts?_geometry, ofShards?_withRoom hb]
    dsimp only
    rw [length_headD_withRoom, hdata]
    rfl

/-! ## Reading -/

/-- **The length that a reader expects is the length that was written.** -/
theorem shardSize_withBlockSize (c : Codec) (size : ℕ) :
    (c.withBlockSize size).shardFile.shardSize = c.geometry.shardLength size :=
  ceilDiv_natCast c.geometry size

end Codec

namespace Cluster

/-- The shards of a block that the slots give, of the length that the layout of the codec has for
it. -/
def collectByLayout (token : Token) (key : String) (size : ℕ) (skip : Option ℕ) : Op Stripe :=
  collectOf (fun c => (c.codec.withBlockSize size).shardFile.shardSize.toNat) token key skip

theorem collectByLayout_eq_collect (token : Token) (key : String) (size : ℕ) (skip : Option ℕ) :
    collectByLayout token key size skip = collect token key size skip := by
  unfold collectByLayout collect
  simp only [Codec.shardSize_withBlockSize, Int.toNat_natCast]
  rfl

end Cluster

/-! ## Layouts -/

namespace Codec

/-- Shards of the length that is asked for pass the screening. -/
theorem screen_map_ok {n : ℕ} {shards : List Bytes} (h : ∀ s ∈ shards, s.length = n) :
    screen n (shards.map .ok) = shards.map some := by
  rw [screen, List.map_map]
  exact List.map_congr_left fun s hs => if_pos (h s hs)

/-- **Writer and reader agree on the layout of a block**, whatever its size. It is always written,
as the shards of its code, and all of them have the length that the layout of the codec has for its
size: the length for which a reader screens them, so that none is lost. The data shards are the
block and the zeros that fill it up, and give the block again. -/
theorem layout_exact (c : Codec) (b : Bytes) :
    let g := c.geometry
    let expected := (c.withBlockSize b.length).shardFile.shardSize
    (∀ token key skip, Cluster.collectByLayout token key b.length skip =
      Cluster.collect token key b.length skip) ∧
    ∃ shards c', c.encodeChecked b = (.ok shards, c') ∧ (shards, c') = c.encode b ∧
      shards.length = g.total ∧ (∀ s ∈ shards, (s.length : ℤ) = expected) ∧
      (∃ zeros : ℕ, zeros = g.data * expected - b.length ∧
        (shards.take g.data).flatten = b ++ List.replicate zeros 0) ∧
      (expected = 0 → b = []) ∧
      ((shards.take g.data).flatten).take b.length = b ∧
      screen expected.toNat (shards.map .ok) = shards.map some ∧
      g.payload b.length (shards.map some) = b := by
  intro g expected
  have hlength : expected = g.shardLength b.length := c.shardSize_withBlockSize b.length
  have hroom := g.le_mul_shardLength b.length
  have hdata : (g.encode b).take g.data = g.dataShards b :=
    List.take_left' (length_dataShards g b)
  refine ⟨fun token key skip => Cluster.collectByLayout_eq_collect token key b.length skip,
    g.encode b, _, c.encodeChecked_eq_encode b, rfl, length_encode g b, fun s hs => ?_,
    ⟨g.data * g.shardLength b.length - b.length, ?_, ?_⟩, fun h0 => ?_, take_flatten_encode g b,
    ?_, payload_of_data fun i _ => List.getElem?_map⟩
  · rw [length_of_mem_encode hs, hlength]
  · rw [hlength, Nat.cast_sub hroom, Nat.cast_mul]
  · rw [hdata, flatten_dataShards]
  · rw [hlength, Nat.cast_eq_zero] at h0
    exact List.length_eq_zero_iff.1 (shardLength_eq_zero_iff.1 h0)
  · rw [hlength, Int.toNat_natCast]
    exact screen_map_ok fun s => length_of_mem_encode

/-- One byte, for which the first of two data shards has room. -/
theorem layout_of_oneByte :
    let c : Codec := .ofGeometry .twoAndOne 0
    (c.withBlockSize 1).shardFile.shardSize = 1 ∧
      ∃ shards c', c.encodeChecked [7] = (.ok shards, c') ∧ shards.length = 3 ∧
        (∀ s ∈ shards, (s.length : ℤ) = 1) ∧ (shards.take 2).flatten = [7, 0] := by
  intro c
  have hlength : (c.withBlockSize 1).shardFile.shardSize = 1 := by decide
  obtain ⟨-, shards, c', hencode, -, hcount, heven, ⟨zeros, hzeros, hflatten⟩, -⟩ :=
    layout_exact c [7]
  have hone : (zeros : ℤ) = 2 * (c.withBlockSize 1).shardFile.shardSize - 1 := hzeros
  obtain rfl : zeros = 1 := by omega
  exact ⟨hlength, shards, c', hencode, hcount, fun s hs => (heven s hs).trans hlength, hflatten⟩

end Codec

end ErasureVault
