/-
  What a health check detects.

  * `Cluster.Damaged b damaged`: every slot holds its part of the block `b`, but for the slots in
    `damaged`, which hold any other shard or none;
  * the size is still agreed on (`Damaged.sizeOf_eq`) as the other slots are enough. Their shards
    leave only one way to be consistent, which is that of the block (`Damaged.not_sound`): so any
    damage to as many slots as there are parity shards is detected, and no damage is not
    (`verify_of_damaged`).
-/
import ErasureVault.Proofs.Answers
import ErasureVault.Proofs.Health

namespace ErasureVault

namespace Cluster

variable {c : Cluster} {b : Block} {damaged : Finset ℕ}

/-- The size that enough slots tell is agreed on, if none tells another. -/
theorem Bound.sizeOf_of_told {id : Digest} {r : SizeRecord} {good : Finset ℕ} (hc : c.Bound)
    (h2 : 2 ≤ c.geometry.data) (hgood : good ⊆ Finset.range c.geometry.total)
    (hk : c.geometry.data ≤ good.card)
    (htold : ∀ i a, (c.records id)[i]? = some a → Told r good i a) : c.sizeOf id = .ok r.size := by
  have hagreed : Agreed c.geometry id.key .never (Told r good)
      (concludeSize false id.key c.geometry.data (c.records id)) :=
    ⟨false, c.records id, fun _ => rfl, hc.length_records, htold, rfl⟩
  rw [sizeOf, if_neg (Nat.not_lt.2 h2)]
  exact hagreed.eq_ok hgood hk

/-- All slots answer. Those that are not damaged hold their part of the block; a damaged one holds
the record of the block or none, and another shard than its own or none. -/
structure Damaged (b : Block) (damaged : Finset ℕ) (c : Cluster) : Prop where
  bound : c.Bound
  fits : b.Fits
  subset_range : damaged ⊆ Finset.range c.geometry.total
  whole : ∀ i ∉ damaged, ∀ n, c.slotNode? i = some n → n.HoldsPart c.geometry b i
  record : ∀ i ∈ damaged, ∀ n, c.slotNode? i = some n → ∀ r,
    (n.store.held (Text.utf8 b.id.key)).1 = some r → r = b.record.encode
  shard : ∀ i ∈ damaged, ∀ n, c.slotNode? i = some n →
    (n.store.held (Text.utf8 b.id.key)).2 ≠ (c.geometry.encode b.data)[i]?
  reached : ∀ i n, c.slotNode? i = some n → ∀ t ≥ n.calls, ∀ m, (n.weather t m).Passes c.limit

namespace Damaged

variable {i : ℕ}

/-! ## Answers -/

/-- The slots tell the size of the block, and no other. -/
theorem told (h : c.Damaged b damaged) {a : Outcome SizeRecord}
    (ha : (c.records b.id)[i]? = some a) :
    Told b.record (Finset.range c.geometry.total \ damaged) i a := by
  rw [h.bound.getElem?_records, Option.map_eq_some_iff] at ha
  obtain ⟨n, hn, rfl⟩ := ha
  rw [← Node.outcome_getSize]
  have hpass := h.reached i n hn n.calls (Nat.le_refl _) .getRecord
  have htold (hi : i ∉ damaged) := (h.whole i hi n hn).told h.fits hpass "get_meta" 0
  refine ⟨fun hi => htold (Finset.mem_sdiff.1 hi).2, fun r hr => ?_⟩
  by_cases hi : i ∈ damaged
  · obtain ⟨bytes, hbytes, hdecode⟩ := Node.getSize_ok hr
    have hheld := Node.storedRecord_ok ((callNode_of_passes hpass).1.symm.trans hbytes)
    obtain rfl := h.record i hi n hn bytes hheld
    exact Except.ok.inj (hdecode.symm.trans h.fits.decode)
  · exact Except.ok.inj (hr.symm.trans (htold hi))

/-- The node of a slot when it is asked for its shard. -/
theorem exists_asked (h : c.Damaged b damaged) {a : Outcome Bytes}
    (ha : (c.shards b.id)[i]? = some a) :
    ∃ n n', c.slotNode? i = some n ∧ n.After 1 n' ∧ (n'.weather n'.calls .get).Passes c.limit ∧
      a = (callNode c.shardTerms i (Node.get b.id.key) n').1.outcome := by
  rw [h.bound.getElem?_shards, Option.map_eq_some_iff] at ha
  obtain ⟨n, hn, rfl⟩ := ha
  have hafter := Node.after_getRecord c.sizeTerms i b.id.key n
  refine ⟨n, _, hn, hafter, ?_, rfl⟩
  rw [hafter.weather]
  exact h.reached i n hn _ (hafter.calls ▸ Nat.le_add_right ..) .get

/-- A slot that is not damaged gives its shard. -/
theorem shards_of_not_mem (h : c.Damaged b damaged) (hlt : i < c.geometry.total)
    (hi : i ∉ damaged) : ∃ x, (c.geometry.encode b.data)[i]? = some x ∧
      (c.shards b.id)[i]? = some (.ok x) := by
  have hlen : i < (c.shards b.id).length := h.bound.length_shards.symm ▸ hlt
  obtain ⟨n, n', hn, hafter, hpass, ha⟩ := h.exists_asked (List.getElem?_eq_getElem hlen)
  obtain ⟨x, hx, hencode⟩ := ((h.whole i hi n hn).after hafter).given hlt hpass "get" 0
  exact ⟨x, hencode, by rw [List.getElem?_eq_getElem hlen, ha, hx]⟩

/-- A damaged slot does not give its shard. -/
theorem shards_of_mem (h : c.Damaged b damaged) (hi : i ∈ damaged) {x : Bytes}
    (hx : (c.shards b.id)[i]? = some (.ok x)) : (c.geometry.encode b.data)[i]? ≠ some x := by
  obtain ⟨n, n', hn, hafter, hpass, ha⟩ := h.exists_asked hx
  have hheld := Node.storedShard_ok ((callNode_of_passes hpass).1.symm.trans ha.symm)
  rw [hafter.held] at hheld
  intro hencode
  exact h.shard i hi n hn (hheld.trans hencode.symm)

/-! ## Conclusions -/

/-- The slots that are not damaged are enough. -/
theorem le_card_sdiff (h : c.Damaged b damaged) (hm : damaged.card ≤ c.geometry.parity) :
    c.geometry.data ≤ (Finset.range c.geometry.total \ damaged).card := by
  rw [Finset.card_sdiff_of_subset h.subset_range, Finset.card_range, Geometry.total]
  omega

theorem sizeOf_eq (h : c.Damaged b damaged) (h2 : 2 ≤ c.geometry.data)
    (hm : damaged.card ≤ c.geometry.parity) : c.sizeOf b.id = .ok b.size := by
  rw [← h.fits.size_record]
  exact h.bound.sizeOf_of_told h2 Finset.sdiff_subset (h.le_card_sdiff hm) fun i a ha => h.told ha

/-- The check is made on what the slots give. -/
theorem verify_eq (h : c.Damaged b damaged) (h2 : 2 ≤ c.geometry.data)
    (hm : damaged.card ≤ c.geometry.parity) (h0 : 0 < b.size) :
    ((Cluster.verify .never b.id).run c).1 = .ok (c.geometry.sound b.id b.size
      (screen (c.geometry.shardLength b.size) (c.shards b.id))) := by
  rw [(Op.Triple.verify_never b.id c).run_eq rfl, healthOf_of_sizeOf (h.sizeOf_eq h2 hm),
    stripe_of_pos c b.id h0]

/-- The shard of a slot that is not damaged passes. -/
theorem getElem?_screen (h : c.Damaged b damaged) (hlt : i < c.geometry.total)
    (hi : i ∉ damaged) : (screen (c.geometry.shardLength b.size) (c.shards b.id))[i]? =
      (c.geometry.encode b.data)[i]?.map some := by
  obtain ⟨x, hencode, hx⟩ := h.shards_of_not_mem hlt hi
  have hn := Geometry.length_of_mem_encode (List.mem_of_getElem? hencode)
  rw [hencode]
  exact Stripe.mem_present.1 (mem_present_screen.2 ⟨hx, hn⟩)

/-- Without damage the check finds all shards of the block. -/
theorem sound_of_empty (h : c.Damaged b ∅) (h0 : 0 < b.size) :
    c.geometry.sound b.id b.size (screen (c.geometry.shardLength b.size) (c.shards b.id)) := by
  have hscreen : screen (c.geometry.shardLength b.size) (c.shards b.id) =
      (c.geometry.encode b.data).map some := by
    refine List.ext_getElem? fun i => ?_
    rw [List.getElem?_map]
    rcases Nat.lt_or_ge i c.geometry.total with hlt | hge
    · exact h.getElem?_screen hlt (Finset.notMem_empty i)
    · rw [List.getElem?_eq_none (by rwa [length_screen, h.bound.length_shards]),
        List.getElem?_eq_none (by rwa [Geometry.length_encode])]
      rfl
  have hpayload : c.geometry.payload b.size ((c.geometry.encode b.data).map some) = b.data :=
    Geometry.payload_of_data fun i _ => List.getElem?_map
  rw [hscreen, Geometry.sound_iff h0]
  refine ⟨_, rfl, Geometry.consistent_encode .., ?_⟩
  rw [hpayload]
  exact Digest.names_of ..

/-- **Damage that leaves enough slots alone is not consistent.** -/
theorem not_sound (h : c.Damaged b damaged) (h0 : 0 < b.size)
    (hm : damaged.card ≤ c.geometry.parity) (hne : damaged.Nonempty) :
    ¬ c.geometry.sound b.id b.size (screen (c.geometry.shardLength b.size) (c.shards b.id)) := by
  intro hsound
  obtain ⟨shards, hs, hc, -⟩ := (Geometry.sound_iff h0).1 hsound
  -- consistent shards that agree with the block outside the damage are those of the block
  have hshards : shards = c.geometry.encode b.data := by
    refine Geometry.eq_encode_of_consistent hc Finset.sdiff_subset (h.le_card_sdiff hm)
      fun i hi => ?_
    obtain ⟨hlt, hi⟩ := Finset.mem_sdiff.1 hi
    have hget := h.getElem?_screen (Finset.mem_range.1 hlt) hi
    rw [hs, List.getElem?_map] at hget
    exact Option.map_injective (Option.some_injective _) hget
  obtain ⟨i, hi⟩ := hne
  have hlt : i < shards.length := by
    rw [hshards, Geometry.length_encode]
    exact Finset.mem_range.1 (h.subset_range hi)
  have hget := List.getElem?_eq_getElem hlt
  exact h.shards_of_mem hi (getElem?_of_screen hs hget).1 (hshards ▸ hget)

end Damaged

/-- **A health check detects any damage to as many slots as there are parity shards**, and finds
nothing where there is none: whichever bytes of the shards are changed, those that only fill up the
last data shards among them, and whatever is cut off, added or removed. -/
theorem verify_of_damaged (h : c.Damaged b damaged) (h2 : 2 ≤ c.geometry.data) (h0 : 0 < b.size)
    (hm : damaged.card ≤ c.geometry.parity) :
    ((Cluster.verify .never b.id).run c).1 = .ok (decide (damaged = ∅)) := by
  rw [h.verify_eq h2 hm h0]
  rcases damaged.eq_empty_or_nonempty with rfl | hne
  · simpa using h.sound_of_empty h0
  · have hsound := h.not_sound h0 hm hne
    simpa [hne.ne_empty] using hsound

/-- Three slots that hold the parts of three bytes, but for the byte that fills up the second. -/
def badFilling (key : String) : Cluster :=
  { wholeSlots key with
    nodes := [holding key [3, 0, 0, 0] [1, 2], holding key [3, 0, 0, 0] [3, 1],
      holding key [3, 0, 0, 0] [5, 6]] }

/-- A changed byte that is no part of the block is detected. -/
theorem verify_of_badFilling :
    let b : Block := ⟨.blake3, [1, 2, 3]⟩
    ((Cluster.verify .never b.id).run (badFilling b.id.key)).1 = .ok false := by
  intro b
  set c := badFilling b.id.key with hc
  have hencode : c.geometry.encode b.data = [[1, 2], [3, 0], [5, 6]] := by decide +kernel
  have hrecord : b.record.encode = [3, 0, 0, 0] := by decide
  have hcalm : ∀ i n, c.slotNode? i = some n → ∀ t m, n.weather t m = .calm := by
    intro i n hn
    match i with
    | 0 | 1 | 2 =>
      obtain rfl := Option.some.inj hn
      exact fun _ _ => rfl
    | i + 3 => simp [hc, slotNode?, badFilling, wholeSlots] at hn
  have hheld : ∀ i n, c.slotNode? i = some n → n.store.held (Text.utf8 b.id.key) =
      (some [3, 0, 0, 0], [[1, 2], [3, 1], [5, 6]][i]?) := by
    intro i n hn
    match i with
    | 0 | 1 | 2 =>
      obtain rfl := Option.some.inj hn
      exact held_holding ..
    | i + 3 => simp [hc, slotNode?, badFilling, wholeSlots] at hn
  have hdamaged : c.Damaged b {1} := by
    refine ⟨⟨rfl, by decide, by decide⟩, by decide, by decide, fun i hi n hn => ?_,
      fun i _ n hn r hr => ?_, fun i hi n hn => ?_, fun i n hn t _ m => ?_⟩
    · rw [Node.HoldsPart, hheld i n hn, Geometry.part, hencode, hrecord]
      obtain _ | _ | _ | i := i
      · rfl
      · simp at hi
      · rfl
      · rfl
    · rw [hheld i n hn] at hr
      rw [hrecord, ← Option.some.inj hr]
    · obtain rfl := Finset.mem_singleton.1 hi
      rw [hheld 1 n hn, hencode]
      decide
    · rw [hcalm i n hn]
      exact Disturbance.calm_passes _
  exact verify_of_damaged hdamaged (by decide) (by decide) (by decide)

end Cluster

end ErasureVault
