/-
  How far apart the shards of two blocks are.

  * Shards are consistent exactly if they are all shards of what their data shards hold
    (`consistent_iff_eq_encode`);
  * blocks whose shards agree in as many slots as there are data shards have the same shards
    (`encode_eq_of_agree`). Hence consistent shards that are not those of a block differ from them
    in more slots than there are parity shards (`eq_encode_of_consistent`).
-/
import ErasureVault.Proofs.Padding

namespace ErasureVault

open Interpolation Polynomial

namespace Geometry

variable {g : Geometry} {shards : List Bytes} {b b' : Bytes} {places : Finset ℕ}

/-! ## Consistent shards -/

theorem sameShape_iff : g.sameShape shards ↔
    shards.length = g.total ∧ ∀ x ∈ shards, x.length = (shards.headD []).length := by
  simp [sameShape]

/-- The first of some shards of one length has that length. -/
theorem length_headD {n : ℕ} (hne : shards ≠ []) (hn : ∀ x ∈ shards, x.length = n) :
    (shards.headD []).length = n := by
  cases shards with
  | nil => exact absurd rfl hne
  | cons x rest => exact hn x List.mem_cons_self

theorem ne_nil_of_length (h : shards.length = g.total) : shards ≠ [] := by
  have := g.data_lt_total
  rintro rfl
  rw [List.length_nil] at h
  omega

theorem consistent_encode (g : Geometry) (b : Bytes) : g.consistent (g.encode b) := by
  have hlen := length_encode g b
  have hhead : ((g.encode b).headD []).length = g.shardLength b.length :=
    length_headD (ne_nil_of_length hlen) fun _ => length_of_mem_encode
  have hk := length_dataShards g b
  rw [consistent, Bool.and_eq_true, sameShape_iff, decide_eq_true_eq, hhead]
  refine ⟨⟨hlen, fun x hx => length_of_mem_encode hx⟩, ?_⟩
  rw [encode, List.drop_left' hk, List.take_left' hk]

/-- **Consistent shards are all shards of what their data shards hold.** -/
theorem consistent_iff_eq_encode :
    g.consistent shards ↔ shards = g.encode (shards.take g.data).flatten := by
  constructor
  · intro h
    rw [consistent, Bool.and_eq_true, sameShape_iff, decide_eq_true_eq] at h
    obtain ⟨⟨hlen, hn⟩, hdrop⟩ := h
    have hk : (shards.take g.data).length = g.data := by
      have := g.data_lt_total
      rw [List.length_take]
      omega
    rw [encode_flatten hk fun p hp => hn p (List.mem_of_mem_take hp), ← hdrop,
      List.take_append_drop]
  · intro h
    rw [h]
    exact consistent_encode g _

/-! ## Distance -/

theorem shardOn_congr {f f' : ℕ → Gf256[X]} {n : ℕ} (h : ∀ j < n, f j = f' j) (x : Gf256) :
    shardOn f n x = shardOn f' n x :=
  List.map_congr_left fun j hj => by rw [h j (List.mem_range.1 hj)]

/-- **Blocks whose shards agree in enough slots have the same shards.** Byte by byte, two
polynomials of low degree agree in more places than two different ones can. -/
theorem encode_eq_of_agree (hplaces : places ⊆ Finset.range g.total) (hk : g.data ≤ places.card)
    (h : ∀ i ∈ places, (g.encode b)[i]? = (g.encode b')[i]?) : g.encode b = g.encode b' := by
  have hshard {i : ℕ} (hi : i ∈ places) :
      shardOn (g.curve b) (g.shardLength b.length) (Gf256.ofNat i) =
        shardOn (g.curve b') (g.shardLength b'.length) (Gf256.ofNat i) := by
    have hlt := Finset.mem_range.1 (hplaces hi)
    have := h i hi
    rwa [getElem?_encode g b hlt, getElem?_encode g b' hlt, Option.some.injEq] at this
  obtain ⟨i₀, hi₀⟩ : places.Nonempty := Finset.card_pos.1 (g.data_pos.trans_le hk)
  have hlen : g.shardLength b.length = g.shardLength b'.length := by
    simpa only [length_shardOn] using congrArg List.length (hshard hi₀)
  have hdegree (d : Bytes) (j : ℕ) : (g.curve d j).degree < places.card :=
    (g.degree_curve d j).trans_le (by exact_mod_cast hk)
  have hinj : Set.InjOn Gf256.ofNat places :=
    (injOn_ofNat g.total_le_field).mono (Finset.coe_subset.2 hplaces)
  have hcurve : ∀ j < g.shardLength b.length, g.curve b j = g.curve b' j := by
    intro j hj
    refine eq_of_degrees_lt_of_eval_index_eq places hinj (hdegree b j) (hdegree b' j) fun i hi => ?_
    rw [← valueAt_shardOn (g.curve b) hj, ← valueAt_shardOn (g.curve b') (hlen ▸ hj), hshard hi]
  rw [encode_eq_shardsOn, encode_eq_shardsOn, ← hlen]
  exact List.map_congr_left fun i _ => shardOn_congr hcurve _

/-- Consistent shards that agree with those of a block in enough slots are those of the block. -/
theorem eq_encode_of_consistent (hc : g.consistent shards) (hplaces : places ⊆ Finset.range g.total)
    (hk : g.data ≤ places.card) (h : ∀ i ∈ places, shards[i]? = (g.encode b)[i]?) :
    shards = g.encode b := by
  have hs := consistent_iff_eq_encode.1 hc
  refine hs.trans (encode_eq_of_agree hplaces hk fun i hi => ?_)
  rw [← hs]
  exact h i hi

end Geometry

end ErasureVault
