/-
  The erasure code of a geometry, and what survives the loss of shards.

  * The shards of a block are the product of a coding matrix with its data shards
    (`encode_eq_codingMatrix`);
  * `Stripe.Lost lost shards s`: in `s`, the shards of the slots in `lost` are missing or empty.
    A block survives the loss of as many shards as it has parity shards, and of no more
    (`rebuild_of_lost`).
-/
import ErasureVault.Cluster.Read
import ErasureVault.Proofs.Stripe
import Mathlib.Data.Nat.Count
import Mathlib.LinearAlgebra.Vandermonde
import Mathlib.LinearAlgebra.Matrix.NonsingularInverse

namespace ErasureVault

open Interpolation Polynomial

namespace Geometry

/-! ## The coding matrix -/

/-- The powers of the elements of all slots: `V[r][c] = r^c`. -/
def powers (g : Geometry) : Matrix (Fin g.total) (Fin g.data) Gf256 :=
  fun r c => Gf256.ofNat r ^ (c : ℕ)

/-- The rows of the data slots. -/
def topPowers (g : Geometry) : Matrix (Fin g.data) (Fin g.data) Gf256 :=
  Matrix.vandermonde fun r => Gf256.ofNat r

/-- The coding matrix: the powers, multiplied so that the rows of the data slots are the unit
matrix. -/
noncomputable def codingMatrix (g : Geometry) : Matrix (Fin g.total) (Fin g.data) Gf256 :=
  g.powers * g.topPowers⁻¹

theorem isUnit_det_topPowers (g : Geometry) : IsUnit g.topPowers.det := by
  refine isUnit_iff_ne_zero.2 (Matrix.det_vandermonde_ne_zero_iff.2 fun r c h => ?_)
  have := g.total_le_field
  have := g.data_lt_total
  exact Fin.ext (Gf256.ofNat_injective_below (by omega) (by omega) h)

theorem eval_eq_mulVec {p : Gf256[X]} {k : ℕ} (hp : p.degree < k) (x : Gf256) :
    p.eval x = ∑ c : Fin k, x ^ (c : ℕ) * p.coeff c := by
  have hd : p.natDegree < k ∨ k = 0 := by
    by_cases h : p = 0
    · subst h
      simp
      omega
    · exact Or.inl ((Polynomial.natDegree_lt_iff_degree_lt h).2 hp)
  rcases hd with hd | rfl
  · rw [Polynomial.eval_eq_sum_range' hd, Finset.sum_range]
    exact Finset.sum_congr rfl fun c _ => mul_comm ..
  · have : p = 0 := Polynomial.degree_eq_bot.1 (by simpa using hp)
    simp [this]

/-- **The shards of a block are the product of the coding matrix and the data shards**, byte by
byte. -/
theorem encode_eq_codingMatrix (g : Geometry) (b : Bytes) (r : Fin g.total) {j : ℕ}
    (hj : j < g.shardLength b.length) :
    valueAt ((g.encode b).getD r []) j =
      g.codingMatrix.mulVec (fun c => valueAt ((g.dataShards b).getD c []) j) r := by
  have hr : (g.encode b).getD r [] =
      shardOn (g.curve b) (g.shardLength b.length) (Gf256.ofNat r) := by
    rw [List.getD_eq_getElem?_getD, getElem?_encode g b r.2, Option.getD_some]
  have hdata : (fun c : Fin g.data => valueAt ((g.dataShards b).getD c []) j) =
      g.topPowers.mulVec fun c => (g.curve b j).coeff c := by
    funext c
    have hc : (c : ℕ) < (g.dataShards b).length := by simp
    have hs := shardOn_curveThrough (g.length_dataShards_le b)
      (fun s hs => length_of_mem_dataShards hs) hc
    rw [List.getD_eq_getElem?_getD, List.getElem?_eq_getElem hc, Option.getD_some, ← hs,
      valueAt_shardOn _ hj]
    exact eval_eq_mulVec (g.degree_curve b j) _
  rw [hr, valueAt_shardOn _ hj, hdata, codingMatrix, Matrix.mulVec_mulVec, Matrix.mul_assoc,
    Matrix.nonsing_inv_mul _ g.isUnit_det_topPowers, Matrix.mul_one]
  exact eval_eq_mulVec (g.degree_curve b j) _

end Geometry

/-! ## Lost shards -/

/-- Elements are counted by their places. -/
theorem countP_eq_card {α : Type} {p : α → Bool} {l : List α} {places : Finset ℕ}
    (hl : places ⊆ Finset.range l.length)
    (h : ∀ i a, l[i]? = some a → (p a = true ↔ i ∈ places)) : l.countP p = places.card := by
  have hcount : l.countP p = (List.range l.length).countP fun i => decide (i ∈ places) := by
    conv_lhs => rw [← List.zipIdx_map_fst 0 l, List.countP_map]
    conv_rhs => rw [List.range_eq_range', ← List.zipIdx_map_snd, List.countP_map]
    refine List.countP_congr ?_
    rintro ⟨a, i⟩ ha
    simpa using h i a (List.mk_mem_zipIdx_iff_getElem?.1 ha)
  rw [hcount, ← Nat.count, Nat.count_eq_card_filter_range, Finset.filter_mem_eq_inter,
    Finset.inter_eq_right.2 hl]

namespace Stripe

/-- The shards without those of the slots in `lost`. -/
def without (lost : Finset ℕ) (shards : List Bytes) : Stripe :=
  shards.mapIdx fun i b => if i ∈ lost then none else some b

/-- The shards of the slots in `lost` are missing, or empty. -/
structure Lost (lost : Finset ℕ) (shards : List Bytes) (s : Stripe) : Prop where
  length_eq : s.length = shards.length
  kept : ∀ i ∉ lost, s[i]? = shards[i]?.map some
  gone : ∀ i ∈ lost, s[i]? = some none ∨ s[i]? = some (some [])

variable {lost : Finset ℕ} {shards : List Bytes} {s : Stripe}

@[simp] theorem length_without (lost : Finset ℕ) (shards : List Bytes) :
    (without lost shards).length = shards.length := by
  simp [without]

theorem getElem?_without (lost : Finset ℕ) (shards : List Bytes) (i : ℕ) :
    (without lost shards)[i]? = shards[i]?.map fun b => if i ∈ lost then none else some b := by
  simp [without]

theorem Lost.subset_range (h : Lost lost shards s) : lost ⊆ Finset.range shards.length := by
  intro i hi
  rw [Finset.mem_range, ← h.length_eq]
  rcases h.gone i hi with h | h <;> exact (List.getElem?_eq_some_iff.1 h).1

/-- Lost shards count as missing, and no others. -/
theorem Lost.dropEmpty_eq (h : Lost lost shards s) (hne : ∀ b ∈ shards, b ≠ []) :
    s.dropEmpty = without lost shards := by
  refine List.ext_getElem? fun i => ?_
  rw [getElem?_without, dropEmpty, List.getElem?_map]
  by_cases hi : i ∈ lost
  · have hlt : i < shards.length := Finset.mem_range.1 (h.subset_range hi)
    rw [List.getElem?_eq_getElem hlt]
    rcases h.gone i hi with hs | hs <;> simp [hs, hi]
  · rw [h.kept i hi]
    cases hb : shards[i]? with
    | none => rfl
    | some b =>
      have := hne b (List.mem_of_getElem? hb)
      cases b with
      | nil => exact absurd rfl this
      | cons d b => simp [hi]

/-- The shards that are not lost are present. -/
theorem length_present_without (h : lost ⊆ Finset.range shards.length) :
    (without lost shards).present.length = shards.length - lost.card := by
  have hcount : (without lost shards).countP Option.isSome =
      (Finset.range shards.length \ lost).card := by
    refine countP_eq_card (by simp) fun i shard hs => ?_
    rw [getElem?_without, Option.map_eq_some_iff] at hs
    obtain ⟨b, hb, rfl⟩ := hs
    have hi : i < shards.length := (List.getElem?_eq_some_iff.1 hb).1
    by_cases hl : i ∈ lost <;> simp [hl, hi]
  rw [length_present, hcount, Finset.card_sdiff_of_subset h, Finset.card_range]

end Stripe

namespace Geometry

open Stripe

variable {g : Geometry}

theorem without_on (lost : Finset ℕ) (b : Bytes) :
    On (g.curve b) (g.shardLength b.length) (without lost (g.encode b)) := by
  intro i c hc
  rw [getElem?_without, Option.map_eq_some_iff] at hc
  obtain ⟨d, hd, hdc⟩ := hc
  have hi : i < g.total := by
    rw [← length_encode g b]
    exact (List.getElem?_eq_some_iff.1 hd).1
  rw [getElem?_encode g b hi, Option.some.injEq] at hd
  split at hdc
  · simp at hdc
  · rw [hd]
    exact (Option.some.inj hdc).symm

theorem ne_nil_of_mem_encode {b s : Bytes} (hb : b ≠ []) (h : s ∈ g.encode b) : s ≠ [] := by
  have hl := length_of_mem_encode h
  have hpos : g.shardLength b.length ≠ 0 :=
    fun h0 => hb (List.length_eq_zero_iff.1 (shardLength_eq_zero_iff.1 h0))
  rintro rfl
  exact hpos hl.symm

/-- A stripe with the data shards of a block gives the block. -/
theorem payload_of_data {b : Bytes} {s : Stripe}
    (h : ∀ i < g.data, s[i]? = (g.encode b)[i]?.map some) : g.payload b.length s = b := by
  have hlt := g.data_lt_total
  have htake : s.take g.data = ((g.encode b).take g.data).map some := by
    refine List.ext_getElem? fun i => ?_
    rw [List.getElem?_take, List.getElem?_map, List.getElem?_take]
    split
    · exact h i ‹_›
    · rfl
  rw [payload, htake, List.map_map]
  have hid : ((fun shard : Option Bytes => shard.getD []) ∘ some) = id := rfl
  rw [hid, List.map_id]
  exact take_flatten_encode g b

/-- The shards that are rebuilt are those of the block. -/
theorem rebuild_of_lost_of_card_le {b : Bytes} (hb : b ≠ []) {lost : Finset ℕ} {s : Stripe}
    (h : s.Lost lost (g.encode b)) (hc : lost.card ≤ g.parity) (extent : Extent) :
    g.rebuild extent s =
      (.ok (), without {i ∈ lost | ¬ extent.Covers g i} (g.encode b)) := by
  have hs : s.length = g.total := by rw [h.length_eq, length_encode]
  have hdrop := h.dropEmpty_eq fun _ => ne_nil_of_mem_encode hb
  have hp : g.data ≤ s.dropEmpty.present.length := by
    rw [hdrop, length_present_without h.subset_range, length_encode, total]
    omega
  rw [rebuild_on extent hs (hdrop ▸ without_on lost b) (g.degree_curve b) hp, hdrop]
  refine Prod.ext rfl (List.ext_getElem? fun i => ?_)
  rw [getElem?_fill, getElem?_without, getElem?_without]
  by_cases hi : i < g.total
  · rw [getElem?_encode g b hi]
    by_cases hl : i ∈ lost <;> by_cases he : extent.Covers g i <;> simp [hl, he]
  · rw [List.getElem?_eq_none (by rw [length_encode]; omega)]
    rfl

/-- Too few shards are left, and said to be. -/
theorem rebuild_of_lost_of_lt_card {b : Bytes} (hb : b ≠ []) {lost : Finset ℕ} {s : Stripe}
    (h : s.Lost lost (g.encode b)) (hc : g.parity < lost.card) (hall : lost.card < g.total)
    (extent : Extent) :
    (g.rebuild extent s).1 = .error (.shardsMissing (g.total - lost.card) g.data) := by
  have hs : s.length = g.total := by rw [h.length_eq, length_encode]
  have hdrop := h.dropEmpty_eq fun _ => ne_nil_of_mem_encode hb
  have hp : s.dropEmpty.present.length = g.total - lost.card := by
    rw [hdrop, length_present_without h.subset_range, length_encode]
  have hne : s.dropEmpty.present ≠ [] := fun h0 => by
    rw [h0, List.length_nil] at hp
    omega
  have hfew : s.dropEmpty.present.length < g.data := by
    have hk := g.data_pos
    rw [hp, total]
    omega
  rw [rebuild, if_neg (not_not.2 hs)]
  simp only [examine_of_few hne hfew, hp]

/-- **A block survives the loss of as many shards as it has parity shards, and of no more.**
The code is that of the coding matrix. Rebuilding everything gives all shards of the block, and
rebuilding its data leaves the lost parity shards missing; either way the data shards are those of
the block. Of a stripe that lacks more shards, but not all, nothing can be rebuilt. -/
theorem rebuild_of_lost {b : Bytes} (hb : b ≠ []) {lost : Finset ℕ} {s : Stripe}
    (h : s.Lost lost (g.encode b)) :
    (∀ (r : Fin g.total) (j : ℕ), j < g.shardLength b.length →
      valueAt ((g.encode b).getD r []) j =
        g.codingMatrix.mulVec (fun c => valueAt ((g.dataShards b).getD c []) j) r) ∧
    (lost.card ≤ g.parity →
      g.rebuild .everything s = (.ok (), (g.encode b).map some) ∧
      g.rebuild .data s = (.ok (), without {i ∈ lost | g.data ≤ i} (g.encode b)) ∧
      ∀ extent, g.payload b.length (g.rebuild extent s).2 = b) ∧
    (g.parity < lost.card → lost.card < g.total → ∀ extent,
      (g.rebuild extent s).1 = .error (.shardsMissing (g.total - lost.card) g.data)) := by
  refine ⟨fun r j hj => g.encode_eq_codingMatrix b r hj, fun hc => ⟨?_, ?_, fun extent => ?_⟩,
    fun hc hall extent => rebuild_of_lost_of_lt_card hb h hc hall extent⟩
  · rw [rebuild_of_lost_of_card_le hb h hc]
    refine Prod.ext rfl (List.ext_getElem? fun i => ?_)
    simp [getElem?_without, Extent.Covers]
  · rw [rebuild_of_lost_of_card_le hb h hc]
    simp only [Extent.Covers, not_lt]
  · rw [rebuild_of_lost_of_card_le hb h hc]
    refine payload_of_data fun i hi => ?_
    have hcov : extent.Covers g i := by
      cases extent
      · exact hi
      · exact trivial
    simp [getElem?_without, hcov]

/-- Two data shards and one parity shard. -/
def twoAndOne : Geometry := ⟨2, 1, by decide, by decide, by decide⟩

/-- Two data shards and two parity shards. -/
def twoAndTwo : Geometry := ⟨2, 2, twoAndOne.data_pos, twoAndOne.data_pos, by decide⟩

/-- The first of three shards, of which two are data, is rebuilt from the others. -/
theorem rebuild_of_first_lost :
    let g := twoAndOne
    Lost {0} (g.encode [1, 2, 3]) [some [], some [3, 0], some [5, 6]] ∧
      g.rebuild .everything [some [], some [3, 0], some [5, 6]] =
        (.ok (), [some [1, 2], some [3, 0], some [5, 6]]) := by
  intro g
  have he : g.encode [1, 2, 3] = [[1, 2], [3, 0], [5, 6]] := by decide +kernel
  have hl : Lost {0} (g.encode [1, 2, 3]) [some [], some [3, 0], some [5, 6]] := by
    rw [he]
    refine ⟨rfl, fun i hi => ?_, fun i hi => ?_⟩
    · cases i with
      | zero => simp at hi
      | succ i => rw [← List.getElem?_map]; rfl
    · rw [Finset.mem_singleton.1 hi]
      exact Or.inr rfl
  refine ⟨hl, ?_⟩
  have h := ((rebuild_of_lost (by simp) hl).2.1 (by decide)).1
  rw [he] at h
  exact h

end Geometry

end ErasureVault
