/-
  Shards on curves.

  A curve is a polynomial for each byte of a shard; `shardOn f n x` is the shard of `n` bytes at
  `x`. Shards at `k` different slots lie on one curve of degree below `k` (`curveThrough`), and
  interpolation through them gives the shard of that curve at every other slot
  (`valuesAt_shardsOn`).
-/
import ErasureVault.Code.Interpolation
import ErasureVault.Proofs.Field
import Mathlib.LinearAlgebra.Lagrange

namespace ErasureVault.Interpolation

open Polynomial

/-- The value of a byte in a shard. -/
def valueAt (s : Bytes) (j : ℕ) : Gf256 := ⟨s.getD j 0⟩

/-- The shard of `n` bytes at `x` on the curve `f`. -/
noncomputable def shardOn (f : ℕ → Gf256[X]) (n : ℕ) (x : Gf256) : Bytes :=
  (List.range n).map fun j => ((f j).eval x).byte

@[simp] theorem length_shardOn (f : ℕ → Gf256[X]) (n : ℕ) (x : Gf256) :
    (shardOn f n x).length = n := by
  simp [shardOn]

theorem valueAt_shardOn (f : ℕ → Gf256[X]) {n j : ℕ} (hj : j < n) (x : Gf256) :
    valueAt (shardOn f n x) j = (f j).eval x := by
  simp [valueAt, shardOn, hj]

theorem ext_valueAt {s t : Bytes} (hl : s.length = t.length)
    (h : ∀ j < s.length, valueAt s j = valueAt t j) : s = t := by
  refine List.ext_getElem hl fun j hs ht => ?_
  simpa [valueAt, hs, ht] using h j hs

/-! ## Sums of shards -/

theorem valueAt_addScaled {sum s : Bytes} (h : s.length = sum.length) (c : Gf256) (j : ℕ)
    (hj : j < sum.length) :
    valueAt (addScaled sum c s) j = valueAt sum j + c * valueAt s j := by
  simp [valueAt, addScaled, hj, h]

theorem valueAt_foldl_addScaled {l : List (Gf256 × Bytes)} {sum : Bytes}
    (hl : ∀ p ∈ l, p.2.length = sum.length) {j : ℕ} (hj : j < sum.length) :
    valueAt (l.foldl (fun sum (c, s) => addScaled sum c s) sum) j =
      valueAt sum j + (l.map fun p => p.1 * valueAt p.2 j).sum := by
  -- the sum so far is generalised, as the fold changes it
  induction l generalizing sum with
  | nil => simp
  | cons p l ih =>
    obtain ⟨hp, hl⟩ := List.forall_mem_cons.1 hl
    have hlen : (addScaled sum p.1 p.2).length = sum.length := length_addScaled _ _ _ hp
    rw [List.foldl_cons, ih (by rwa [hlen]) (by rwa [hlen]), valueAt_addScaled hp p.1 j hj]
    simp [add_assoc]

/-- A byte of a sum of shards is the sum of their bytes. -/
theorem valueAt_combine (n : ℕ) (cs : List Gf256) (shards : List Bytes)
    (h : ∀ s ∈ shards, s.length = n) {j : ℕ} (hj : j < n) :
    valueAt (combine n cs shards) j =
      (List.zipWith (fun c s => c * valueAt s j) cs shards).sum := by
  have hzip : ∀ p ∈ cs.zip shards, p.2.length = (List.replicate n (0 : UInt8)).length := by
    intro p hp
    rw [List.length_replicate]
    exact h _ (List.of_mem_zip hp).2
  have hzero : valueAt (List.replicate n 0) j = 0 := by
    simp [valueAt, hj]
    rfl
  rw [combine, valueAt_foldl_addScaled hzip (by simpa using hj), hzero, zero_add, List.zip,
    List.map_zipWith]

/-! ## Lagrange polynomials -/

theorem foldl_mul_sub (nodes : List Gf256) (c x p : Gf256) :
    nodes.foldl (fun p n => if n = c then p else p * (x - n)) p =
      p * (nodes.map fun n => if n = c then 1 else x - n).prod := by
  induction nodes generalizing p with
  | nil => simp
  | cons n nodes ih =>
    rw [List.foldl_cons, ih, List.map_cons, List.prod_cons]
    split <;> ring

theorem nodeProduct_eq_prod {nodes : List Gf256} (hn : nodes.Nodup) (c x : Gf256) :
    nodeProduct nodes c x = ∏ n ∈ nodes.toFinset.erase c, (x - n) := by
  rw [nodeProduct, foldl_mul_sub, one_mul, ← List.prod_toFinset _ hn]
  by_cases hc : c ∈ nodes.toFinset
  · rw [← Finset.mul_prod_erase _ _ hc, if_pos rfl, one_mul]
    exact Finset.prod_congr rfl fun n hn => if_neg (Finset.ne_of_mem_erase hn)
  · rw [Finset.erase_eq_of_notMem hc]
    exact Finset.prod_congr rfl fun n hn => if_neg (ne_of_mem_of_not_mem hn hc)

/-- What a node contributes is the value of its Lagrange polynomial. -/
theorem eval_basis {nodes : List Gf256} (hn : nodes.Nodup) (c x : Gf256) :
    (Lagrange.basis nodes.toFinset id c).eval x =
      nodeProduct nodes c x * (nodeProduct nodes c c)⁻¹ := by
  rw [nodeProduct_eq_prod hn, nodeProduct_eq_prod hn, Lagrange.basis, eval_prod,
    ← Finset.prod_inv_distrib, ← Finset.prod_mul_distrib]
  refine Finset.prod_congr rfl fun n _ => ?_
  simp [Lagrange.basisDivisor, mul_comm]

/-- A polynomial of low degree is the sum of what its values at the nodes contribute. -/
theorem eval_eq_sum {nodes : List Gf256} (hn : nodes.Nodup) {p : Gf256[X]}
    (hp : p.degree < nodes.length) (x : Gf256) :
    p.eval x = (List.zipWith (fun c v => c * v) (coefficients nodes (weights nodes) x)
      (nodes.map p.eval)).sum := by
  have hcard : (nodes.toFinset.card : WithBot ℕ) = nodes.length := by
    rw [List.toFinset_card_of_nodup hn]
  have hz : List.zipWith (fun c v => c * v) (coefficients nodes (weights nodes) x)
      (nodes.map p.eval) =
        nodes.map fun c => (Lagrange.basis nodes.toFinset id c).eval x * p.eval c := by
    simp [coefficients, weights, List.zipWith_map_right, List.zipWith_map_left,
      List.zipWith_self, eval_basis hn]
  rw [hz, ← List.sum_toFinset _ hn]
  have hi := Lagrange.eq_interpolate (s := nodes.toFinset) (v := id) (f := p)
    (fun _ _ _ _ h => h) (by rw [hcard]; exact hp)
  conv_lhs => rw [hi]
  rw [Lagrange.interpolate_apply, eval_finsetSum]
  refine Finset.sum_congr rfl fun c _ => ?_
  simp [mul_comm]

theorem nodup_map_ofNat {slots : List ℕ} (hd : slots.Nodup) (hlt : ∀ i ∈ slots, i < 256) :
    (slots.map Gf256.ofNat).Nodup :=
  hd.map_on fun i hi j hj h => Gf256.ofNat_injective_below (hlt i hi) (hlt j hj) h

/-! ## Curves -/

/-- **Interpolation through shards of one curve gives its other shards.** -/
theorem valuesAt_shardsOn (f : ℕ → Gf256[X]) (n : ℕ) {slots : List ℕ} (hd : slots.Nodup)
    (hlt : ∀ i ∈ slots, i < 256) (hf : ∀ j, (f j).degree < slots.length) (x : ℕ) :
    (Points.ofShards n (slots.map fun i => (i, shardOn f n (Gf256.ofNat i)))).valuesAt x =
      shardOn f n (Gf256.ofNat x) := by
  have hshards : ∀ s ∈ (slots.map fun i => (i, shardOn f n (Gf256.ofNat i))).map Prod.snd,
      s.length = n := by simp
  have hlen : ((Points.ofShards n (slots.map fun i => (i, shardOn f n (Gf256.ofNat i)))).valuesAt
      x).length = n := length_combine n _ _ hshards
  refine ext_valueAt (by rw [hlen, length_shardOn]) fun j hj => ?_
  rw [hlen] at hj
  have hnodes := nodup_map_ofNat hd hlt
  rw [valueAt_shardOn f hj, eval_eq_sum hnodes (by simpa using hf j), Points.valuesAt]
  refine (valueAt_combine n _ _ hshards hj).trans ?_
  simp [Points.ofShards, List.zipWith_map_right, valueAt_shardOn f hj, Function.comp_def]

/-- The curve through shards, the shard of each slot in its place. -/
noncomputable def curveThrough (shards : List Bytes) (j : ℕ) : Gf256[X] :=
  Lagrange.interpolate (Finset.range shards.length) Gf256.ofNat
    fun i => valueAt (shards.getD i []) j

theorem injOn_ofNat {k : ℕ} (hk : k ≤ 256) : Set.InjOn Gf256.ofNat (Finset.range k : Set ℕ) := by
  intro i hi j hj h
  simp only [Finset.coe_range, Set.mem_Iio] at hi hj
  exact Gf256.ofNat_injective_below (by omega) (by omega) h

theorem degree_curveThrough {shards : List Bytes} (h : shards.length ≤ 256) (j : ℕ) :
    (curveThrough shards j).degree < shards.length := by
  have := Lagrange.degree_interpolate_lt (fun i => valueAt (shards.getD i []) j) (injOn_ofNat h)
  rwa [Finset.card_range] at this

/-- The curve through shards has them in their slots. -/
theorem shardOn_curveThrough {shards : List Bytes} (h : shards.length ≤ 256) {n : ℕ}
    (hn : ∀ s ∈ shards, s.length = n) {i : ℕ} (hi : i < shards.length) :
    shardOn (curveThrough shards) n (Gf256.ofNat i) = shards[i] := by
  have hl := hn _ (List.getElem_mem hi)
  refine ext_valueAt (by rw [length_shardOn, hl]) fun j hj => ?_
  rw [length_shardOn] at hj
  rw [valueAt_shardOn _ hj, curveThrough,
    Lagrange.eval_interpolate_at_node _ (injOn_ofNat h) (Finset.mem_range.2 hi)]
  simp [hi]

end ErasureVault.Interpolation
