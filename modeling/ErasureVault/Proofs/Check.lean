/-
  What a check of shards tells.

  * Nothing is wrong with the counts of a geometry, nor with shards of the right number and of one
    length other than zero, so that a check never fails (`check_eq_consistent`);
  * `differing shards altered` are the slots whose shards differ. Consistent shards that are altered
    in at least one slot, and in no more than there are parity shards, are not consistent
    (`not_consistent_of_altered`). Hence exactly the shards of a block pass, and any that are close to
    them do not (`check_exact`).
-/
import ErasureVault.Code.Check
import ErasureVault.Proofs.Distance

namespace ErasureVault

/-! ## Faults -/

theorem CodingFault.ofCounts?_geometry (g : Geometry) : ofCounts? g.data g.parity = none := by
  have hd := g.data_pos
  have hp := g.parity_pos
  have ht : g.data + g.parity ≤ 256 := g.total_le_field
  rw [ofCounts?, if_neg (by omega), if_neg (by omega), if_neg (by omega)]

namespace Geometry

variable {g : Geometry} {shards altered : List Bytes}

theorem ofShards?_of_sameShape (h : g.sameShape shards) (hne : shards.headD [] ≠ []) :
    CodingFault.ofShards? g.total shards = none := by
  obtain ⟨hlen, hn⟩ := sameShape_iff.1 h
  have hpos : ¬ (shards.headD []).length = 0 := fun h0 => hne (List.length_eq_zero_iff.1 h0)
  have hany : (shards.any fun b => b.length ≠ (shards.headD []).length) = false :=
    List.any_eq_false.2 fun x hx => by simpa using hn x hx
  rw [CodingFault.ofShards?]
  simp only [hlen, Nat.lt_irrefl, hpos, hany, if_false, Bool.false_eq_true]

/-- Empty data shards are continued by empty shards. -/
theorem consistent_of_empty (h : g.sameShape shards) (hnil : shards.headD [] = []) :
    g.consistent shards := by
  obtain ⟨hlen, hn⟩ := sameShape_iff.1 h
  rw [hnil, List.length_nil] at hn
  have hdrop : shards.drop g.data = List.replicate g.parity [] := by
    refine List.eq_replicate_iff.2 ⟨by rw [List.length_drop, hlen, total]; omega, fun x hx => ?_⟩
    exact List.length_eq_zero_iff.1 (hn x (List.mem_of_mem_drop hx))
  have hparity : g.parityShards 0 (shards.take g.data) = List.replicate g.parity [] := by
    refine List.eq_replicate_iff.2 ⟨by simp [parityShards], fun x hx => ?_⟩
    obtain ⟨j, -, rfl⟩ := List.mem_map.1 hx
    exact List.length_eq_zero_iff.1 (length_valuesAt_dataPoints 0 _ _ fun s hs =>
      hn s (List.mem_of_mem_take hs))
  rw [consistent, h, hnil, List.length_nil, hdrop, hparity]
  simp

/-! ## Altered shards -/

/-- The slots whose shards differ. -/
def differing (shards altered : List Bytes) : Finset ℕ :=
  {i ∈ Finset.range shards.length | altered[i]? ≠ shards[i]?}

/-- **Shards that are close to those of a block are not those of another.** -/
theorem not_consistent_of_altered (hs : g.consistent shards)
    (hpos : 0 < (differing shards altered).card)
    (hle : (differing shards altered).card ≤ g.parity) : ¬ g.consistent altered := by
  intro hc
  have hencode := consistent_iff_eq_encode.1 hs
  have htotal : shards.length = g.total := by rw [hencode, length_encode]
  have hcard : g.data ≤ (Finset.range g.total \ differing shards altered).card := by
    have hsub : differing shards altered ⊆ Finset.range g.total := htotal ▸ Finset.filter_subset ..
    rw [Finset.card_sdiff_of_subset hsub, Finset.card_range, total]
    omega
  have heq : altered = shards := by
    rw [hencode]
    refine eq_encode_of_consistent hc Finset.sdiff_subset hcard fun i hi => ?_
    obtain ⟨hrange, hsame⟩ := Finset.mem_sdiff.1 hi
    rw [differing, Finset.mem_filter, htotal, not_and, not_not] at hsame
    rw [← hencode]
    exact hsame hrange
  rw [differing, heq] at hpos
  simp at hpos

end Geometry

/-! ## Checks -/

namespace Codec

variable {c : Codec} {shards : List Bytes}

/-- **A check never fails**, and tells whether the shards are consistent. -/
theorem check_eq_consistent (c : Codec) (shards : List Bytes) :
    c.check shards = (.ok (c.consistent shards).1, (c.consistent shards).2) := by
  have hsame : c.after false = c := by simp [after]
  rw [check, consistent]
  cases hshape : c.geometry.sameShape shards with
  | false => simp [Geometry.consistent, hshape, hsame]
  | true =>
    by_cases hnil : shards.headD [] = []
    · simp only [not_true_eq_false, if_false, hnil, if_true,
        Geometry.consistent_of_empty hshape hnil]
      simp [hsame]
    · simp only [not_true_eq_false, if_false, hnil, CodingFault.ofCounts?_geometry,
        Geometry.ofShards?_of_sameShape hshape hnil, Geometry.consistent, hshape, Bool.true_and,
        ne_eq, not_false_eq_true, decide_true]

/-- **Exactly the shards of a block pass a check, and any that are close to them do not.** A check
never fails. -/
theorem check_exact (c : Codec) (shards : List Bytes) :
    let g := c.geometry
    c.check shards = (.ok (c.consistent shards).1, (c.consistent shards).2) ∧
    (c.check shards).1 = .ok (decide (shards = g.encode (shards.take g.data).flatten)) ∧
    ((c.check shards).1 = .ok true → ∀ altered,
      1 ≤ (Geometry.differing shards altered).card →
      (Geometry.differing shards altered).card ≤ g.parity → (c.check altered).1 = .ok false) := by
  intro g
  have hcheck (shards : List Bytes) : (c.check shards).1 = .ok (g.consistent shards) := by
    rw [check_eq_consistent]
    rfl
  refine ⟨check_eq_consistent c shards, ?_, fun hpass altered hpos hle => ?_⟩
  · rw [hcheck, Bool.eq_iff_iff.2 (Geometry.consistent_iff_eq_encode.trans decide_eq_true_iff.symm)]
  · have hs : g.consistent shards := Except.ok.inj ((hcheck shards).symm.trans hpass)
    rw [hcheck, Bool.eq_false_iff.2 (Geometry.not_consistent_of_altered hs hpos hle)]

/-- Damage to the filling of a data shard and to the length of a parity shard is noticed. -/
theorem check_of_twoDamaged :
    let c : Codec := .ofGeometry .twoAndTwo 0
    let shards : List Bytes := [[1, 2], [3, 0], [5, 6], [7, 4]]
    let altered : List Bytes := [[1, 2], [3, 9], [5, 6], []]
    (c.check shards).1 = .ok true ∧ (Geometry.differing shards altered).card = 2 ∧
      (c.check altered).1 = .ok false := by
  intro c shards altered
  have hpass : (c.check shards).1 = .ok true := by decide +kernel
  have hdamage : (Geometry.differing shards altered).card = 2 := by decide
  have hdetected := (check_exact c shards).2.2 hpass altered
  rw [hdamage] at hdetected
  exact ⟨hpass, hdamage, hdetected (by decide) (by decide)⟩

end Codec

end ErasureVault
