/-
  Stripes on curves, and how their missing shards are rebuilt.

  * `Stripe.On f n s`: the shards that `s` has lie on the curve `f`. With enough of them, the
    missing ones are rebuilt as those of the curve (`rebuild_on`); for the data shards it is enough
    that the first ones that `s` has lie on it (`fillData_of_first`);
  * a rebuild keeps the shards that are there and adds one wherever it is to
    (`getElem?_fillTo_of_some`, `exists_getElem?_fillTo`);
  * `Geometry.curve g b` is the curve of a block: all its shards lie on it (`encode_eq_shardsOn`).
-/
import ErasureVault.Code.Stripe
import ErasureVault.Proofs.Interpolation

namespace ErasureVault

open Interpolation Polynomial

/-! ## Present shards -/

namespace Stripe

theorem mem_present {s : Stripe} {i : ℕ} {b : Bytes} :
    (i, b) ∈ s.present ↔ s[i]? = some (some b) := by
  simp only [present, List.mem_filterMap, Prod.exists, Option.map_eq_some_iff, Prod.mk.injEq]
  constructor
  · rintro ⟨shard, slot, h, c, rfl, rfl, rfl⟩
    exact List.mk_mem_zipIdx_iff_getElem?.1 h
  · intro h
    exact ⟨some b, i, List.mk_mem_zipIdx_iff_getElem?.2 h, b, rfl, rfl, rfl⟩

/-- The present shards are listed slot after slot. -/
theorem pairwise_present (s : Stripe) : s.present.Pairwise fun p q => p.1 < q.1 := by
  have hz : s.zipIdx.Pairwise fun p q => p.2 < q.2 := by
    rw [← List.pairwise_map (f := Prod.snd) (R := (· < ·)), List.zipIdx_map_snd]
    exact List.pairwise_lt_range'
  refine List.pairwise_filterMap.2 (hz.imp ?_)
  rintro ⟨a, i⟩ ⟨b, j⟩ hij p hp q hq
  simp only [Option.map_eq_some_iff] at hp hq
  obtain ⟨_, -, rfl⟩ := hp
  obtain ⟨_, -, rfl⟩ := hq
  exact hij

theorem countP_isSome_eq (s : Stripe) :
    s.countP Option.isSome = s.zipIdx.countP fun p => p.1.isSome := by
  conv_lhs => rw [← List.zipIdx_map_fst 0 s, List.countP_map]
  rfl

theorem length_present (s : Stripe) : s.present.length = s.countP Option.isSome := by
  rw [countP_isSome_eq, present, List.length_filterMap_eq_countP]
  refine List.countP_congr ?_
  rintro ⟨shard, i⟩ -
  cases shard <;> rfl

theorem le_getElem_of_pairwise {l : List ℕ} (h : l.Pairwise (· < ·)) (j : ℕ) (hj : j < l.length) :
    j ≤ l[j] := by
  induction j with
  | zero => exact Nat.zero_le _
  | succ j ih =>
    have hlt := List.pairwise_iff_getElem.1 h j (j + 1) (by omega) hj (by omega)
    have := ih (by omega)
    omega

/-- A data shard that is present is among the first that are. -/
theorem mem_take_present {s : Stripe} {k i : ℕ} {b : Bytes} (hb : s[i]? = some (some b))
    (hi : i < k) : (i, b) ∈ s.present.take k := by
  obtain ⟨j, hj, hget⟩ := List.mem_iff_getElem.1 (mem_present.2 hb)
  have hslots : (s.present.map Prod.fst).Pairwise (· < ·) := List.pairwise_map.2 s.pairwise_present
  have hle := le_getElem_of_pairwise hslots j (by simpa using hj)
  rw [List.getElem_map, hget] at hle
  refine List.mem_iff_getElem.2 ⟨j, ?_, ?_⟩
  · rw [List.length_take]
    omega
  · rw [List.getElem_take, hget]

/-! ## Shards on a curve -/

/-- The shards that are there lie on the curve `f`. -/
def On (f : ℕ → Gf256[X]) (n : ℕ) (s : Stripe) : Prop :=
  ∀ i b, s[i]? = some (some b) → b = shardOn f n (Gf256.ofNat i)

theorem On.of_mem_take {f : ℕ → Gf256[X]} {n k : ℕ} {s : Stripe} (h : On f n s) :
    ∀ p ∈ s.present.take k, p.2 = shardOn f n (Gf256.ofNat p.1) :=
  fun p hp => h p.1 p.2 (mem_present.1 (List.mem_of_mem_take hp))

theorem On.fill {f : ℕ → Gf256[X]} {n : ℕ} {s : Stripe} (h : On f n s)
    {g : ℕ → Option Bytes} (hg : ∀ i b, g i = some b → b = shardOn f n (Gf256.ofNat i)) :
    On f n (s.fill g) := by
  intro i b hb
  rw [getElem?_fill] at hb
  cases hs : s[i]? with
  | none => simp [hs] at hb
  | some shard =>
    cases shard with
    | none => exact hg i b (by simpa [hs] using hb)
    | some c =>
      have hc : c = b := by simpa [hs] using hb
      exact hc ▸ h i c hs

/-! ## Filling -/

theorem fill_fill (s : Stripe) (f g : ℕ → Option Bytes) :
    (s.fill f).fill g = s.fill fun i => f i <|> g i := by
  refine List.ext_getElem? fun i => ?_
  rw [getElem?_fill, getElem?_fill, getElem?_fill, Option.map_map]
  cases s[i]? with
  | none => rfl
  | some shard => cases shard <;> rfl

/-- A stripe stays as it is where there is nothing to fill in. -/
theorem fill_eq_self {s : Stripe} {f : ℕ → Option Bytes} (h : ∀ i, s[i]? = some none → f i = none) :
    s.fill f = s := by
  refine List.ext_getElem? fun i => ?_
  rw [getElem?_fill]
  cases hs : s[i]? with
  | none => rfl
  | some shard =>
    cases shard with
    | none => simp [h i hs]
    | some b => rfl

/-- Nothing is filled into a stripe that lacks no shard. -/
theorem fill_of_full {s : Stripe} (h : s.countP Option.isSome = s.length) (f : ℕ → Option Bytes) :
    s.fill f = s := by
  refine fill_eq_self fun i hi => ?_
  have := List.countP_eq_length.1 h none (List.mem_of_getElem? hi)
  simp at this

/-- What is there is not filled in. -/
theorem getElem?_fill_of_some {s : Stripe} {i : ℕ} {b : Bytes} (h : s[i]? = some (some b))
    (f : ℕ → Option Bytes) : (s.fill f)[i]? = some (some b) := by
  rw [getElem?_fill, h]
  rfl

/-- What is filled in where a shard is missing. -/
theorem getElem?_fill_of_none {s : Stripe} {i : ℕ} (h : s[i]? = some none) (f : ℕ → Option Bytes) :
    (s.fill f)[i]? = some (f i) := by
  rw [getElem?_fill, h]
  rfl

theorem present_length_le_fill (s : Stripe) (f : ℕ → Option Bytes) :
    s.present.length ≤ (s.fill f).present.length := by
  rw [length_present, length_present, countP_isSome_eq, fill, List.countP_map]
  refine List.countP_mono_left ?_
  rintro ⟨shard, i⟩ - hp
  cases shard with
  | none => simp at hp
  | some b => rfl

/-- Shards of one length stay so when others of that length are filled in. -/
theorem length_of_mem_present_fill {s : Stripe} {n : ℕ} {f : ℕ → Option Bytes}
    (hs : ∀ p ∈ s.present, p.2.length = n) (hf : ∀ i b, f i = some b → b.length = n) :
    ∀ p ∈ (s.fill f).present, p.2.length = n := by
  rintro ⟨i, b⟩ hp
  have hb := mem_present.1 hp
  rw [getElem?_fill, Option.map_eq_some_iff] at hb
  obtain ⟨shard, hsi, hshard⟩ := hb
  cases shard with
  | none => exact hf i b hshard
  | some d =>
    obtain rfl : d = b := Option.some.inj hshard
    exact hs (i, d) (mem_present.2 hsi)

end Stripe

namespace Geometry

open Stripe

variable {g : Geometry} {extent : Extent} {f : ℕ → Gf256[X]} {n : ℕ} {s : Stripe}

/-- The points of enough shards on a curve give every shard of the curve. -/
theorem valuesAt_basis (hs : s.length = g.total)
    (h : ∀ p ∈ s.present.take g.data, p.2 = shardOn f n (Gf256.ofNat p.1))
    (hf : ∀ j, (f j).degree < g.data) (hp : g.data ≤ s.present.length) (x : ℕ) :
    (g.basis s).valuesAt x = shardOn f n (Gf256.ofNat x) := by
  have hk := g.data_pos
  have htotal : g.total ≤ 256 := g.total_le
  set slots := (s.present.take g.data).map Prod.fst with hslots
  have hlen : slots.length = g.data := by simp [hslots, hp]
  have htake : s.present.take g.data = slots.map fun i => (i, shardOn f n (Gf256.ofNat i)) := by
    rw [hslots, List.map_map]
    refine (List.map_id _).symm.trans (List.map_congr_left ?_)
    rintro ⟨i, b⟩ hb
    simp [← h (i, b) hb]
  have hmem : ∀ i ∈ slots, i < 256 := by
    intro i hi
    obtain ⟨⟨_, b⟩, hb, rfl⟩ := List.mem_map.1 hi
    have hb' := mem_present.1 (List.mem_of_mem_take hb)
    have := (List.getElem?_eq_some_iff.1 hb').1
    omega
  have hnodup : slots.Nodup := by
    rw [hslots, List.map_take]
    refine List.Nodup.sublist (List.take_sublist ..) ?_
    exact List.pairwise_map.2 (s.pairwise_present.imp fun h => Nat.ne_of_lt h)
  have hhead : ((s.present.take g.data).headD (0, [])).2.length = n := by
    rw [htake]
    cases hsl : slots with
    | nil => simp [hsl] at hlen; omega
    | cons i rest => simp
  rw [basis]
  simp only [hhead]
  rw [htake]
  exact valuesAt_shardsOn f n hnodup hmem (by rwa [hlen]) x

/-- A shard computed from shards of one length has that length. -/
theorem length_valuesAt_basis (hn : ∀ p ∈ s.present, p.2.length = n)
    (hp : g.data ≤ s.present.length) (x : ℕ) : ((g.basis s).valuesAt x).length = n := by
  have hk := g.data_pos
  have hhead : ((s.present.take g.data).headD (0, [])).2.length = n := by
    cases hl : s.present.take g.data with
    | nil =>
      have := congrArg List.length hl
      rw [List.length_take, List.length_nil] at this
      omega
    | cons p rest => exact hn p (List.mem_of_mem_take (hl ▸ List.mem_cons_self))
  refine (length_combine _ _ _ fun b hb => ?_).trans hhead
  obtain ⟨p, hmem, rfl⟩ := List.mem_map.1 hb
  exact (hn p (List.mem_of_mem_take hmem)).trans hhead.symm

/-! ## What is filled in -/

/-- Whether a slot is rebuilt. -/
def Extent.Covers (g : Geometry) : Extent → ℕ → Prop
  | .data, i => i < g.data
  | .everything, _ => True

instance (extent : Extent) (i : ℕ) : Decidable (extent.Covers g i) := by
  cases extent
  · exact inferInstanceAs (Decidable (i < g.data))
  · exact inferInstanceAs (Decidable True)

theorem fillTo_data (g : Geometry) (s : Stripe) : g.fillTo .data s =
    s.fill fun i => if i < g.data then some ((g.basis s).valuesAt i) else none := rfl

/-- The parity is computed from all data shards. -/
theorem fillTo_everything (g : Geometry) (s : Stripe) : g.fillTo .everything s =
    (g.fillTo .data s).fill fun i => some ((g.basis (g.fillTo .data s)).valuesAt i) := rfl

theorem length_fillTo (extent : Extent) (s : Stripe) : (g.fillTo extent s).length = s.length := by
  cases extent <;> simp [fillTo, fillData, fillParity]

theorem present_length_le_fillTo (g : Geometry) (extent : Extent) (s : Stripe) :
    s.present.length ≤ (g.fillTo extent s).present.length := by
  cases extent with
  | data =>
    rw [fillTo_data]
    exact present_length_le_fill ..
  | everything =>
    rw [fillTo_everything, fillTo_data]
    exact (present_length_le_fill ..).trans (present_length_le_fill ..)

/-- Shards of one length stay so. -/
theorem length_of_mem_present_fillTo (hn : ∀ p ∈ s.present, p.2.length = n)
    (hp : g.data ≤ s.present.length) : ∀ p ∈ (g.fillTo extent s).present, p.2.length = n := by
  have hdata : ∀ p ∈ (g.fillTo .data s).present, p.2.length = n := by
    rw [fillTo_data]
    refine length_of_mem_present_fill hn fun i b hb => ?_
    split at hb
    · exact Option.some.inj hb ▸ length_valuesAt_basis hn hp i
    · cases hb
  cases extent with
  | data => exact hdata
  | everything =>
    have hp' : g.data ≤ (g.fillTo .data s).present.length := hp.trans (present_length_le_fillTo ..)
    rw [fillTo_everything]
    refine length_of_mem_present_fill hdata fun i b hb => ?_
    exact Option.some.inj hb ▸ length_valuesAt_basis hdata hp' i

/-- What is there stays. -/
theorem getElem?_fillTo_of_some {i : ℕ} {b : Bytes} (h : s[i]? = some (some b)) :
    (g.fillTo extent s)[i]? = some (some b) := by
  cases extent with
  | data => rw [fillTo_data, getElem?_fill_of_some h]
  | everything =>
    rw [fillTo_everything, fillTo_data]
    exact getElem?_fill_of_some (getElem?_fill_of_some h _) _

/-- Every slot that is to be rebuilt gets a shard. -/
theorem exists_getElem?_fillTo {i : ℕ} (hi : i < s.length) (hcov : extent.Covers g i) :
    ∃ b, (g.fillTo extent s)[i]? = some (some b) := by
  cases hs : s[i] with
  | some b => exact ⟨b, getElem?_fillTo_of_some (by rw [List.getElem?_eq_getElem hi, hs])⟩
  | none =>
    have hnone : s[i]? = some none := by rw [List.getElem?_eq_getElem hi, hs]
    have hdata := getElem?_fill_of_none hnone
      fun i => if i < g.data then some ((g.basis s).valuesAt i) else none
    rw [← fillTo_data] at hdata
    cases extent with
    | data => exact ⟨_, hdata.trans (congrArg some (if_pos hcov))⟩
    | everything =>
      rw [fillTo_everything]
      by_cases hlt : i < g.data
      · exact ⟨_, getElem?_fill_of_some (hdata.trans (congrArg some (if_pos hlt))) _⟩
      · exact ⟨_, getElem?_fill_of_none (hdata.trans (congrArg some (if_neg hlt))) _⟩

/-- A slot that is not to be rebuilt is left alone. -/
theorem getElem?_fillTo_of_not_covers {i : ℕ} (hcov : ¬ extent.Covers g i) :
    (g.fillTo extent s)[i]? = s[i]? := by
  cases extent with
  | everything => exact absurd trivial hcov
  | data =>
    have hlt : ¬ i < g.data := hcov
    rw [fillTo_data, getElem?_fill, if_neg hlt]
    cases s[i]? with
    | none => rfl
    | some shard => cases shard <;> rfl

/-- The data shards are the same whether the parity is rebuilt or not. -/
theorem getElem?_fillTo_of_data {i : ℕ} (hi : i < g.data) :
    (g.fillTo extent s)[i]? = (g.fillTo .data s)[i]? := by
  cases extent with
  | data => rfl
  | everything =>
    rcases Nat.lt_or_ge i s.length with hlt | hle
    · have hcov : Extent.data.Covers g i := hi
      obtain ⟨b, hb⟩ := exists_getElem?_fillTo hlt hcov
      rw [fillTo_everything, getElem?_fill_of_some hb, hb]
    · rw [List.getElem?_eq_none (by rwa [length_fillTo]),
        List.getElem?_eq_none (by rwa [length_fillTo])]

/-- A stripe in which every slot that is to be rebuilt has its shard stays as it is. -/
theorem fillTo_eq_self (h : ∀ i, s[i]? = some none → ¬ extent.Covers g i) :
    g.fillTo extent s = s := by
  have hdata : g.fillTo .data s = s := by
    rw [fillTo_data]
    refine fill_eq_self fun i hi => if_neg fun hlt => h i hi ?_
    cases extent
    · exact hlt
    · exact trivial
  cases extent with
  | data => exact hdata
  | everything =>
    rw [fillTo_everything, hdata]
    exact fill_eq_self fun i hi => absurd trivial (h i hi)

theorem fillTo_of_full (extent : Extent) (h : s.countP Option.isSome = s.length) :
    g.fillTo extent s = s := by
  refine fillTo_eq_self fun i hi => ?_
  have := List.countP_eq_length.1 h none (List.mem_of_getElem? hi)
  simp at this

/-! ## Rebuilding -/

/-- Missing data shards are rebuilt as those of the curve on which the first present shards lie. -/
theorem fillData_of_first (hs : s.length = g.total)
    (h : ∀ p ∈ s.present.take g.data, p.2 = shardOn f n (Gf256.ofNat p.1))
    (hf : ∀ j, (f j).degree < g.data) (hp : g.data ≤ s.present.length) :
    g.fillData s =
      s.fill fun i => if i < g.data then some (shardOn f n (Gf256.ofNat i)) else none := by
  rw [fillData]
  simp only [valuesAt_basis hs h hf hp]

theorem fillParity_on (hs : s.length = g.total) (h : On f n s) (hf : ∀ j, (f j).degree < g.data)
    (hp : g.data ≤ s.present.length) :
    g.fillParity s = s.fill fun i => some (shardOn f n (Gf256.ofNat i)) := by
  rw [fillParity]
  simp only [valuesAt_basis hs h.of_mem_take hf hp]

/-- All missing shards are rebuilt as those of the curve. -/
theorem fillTo_on (extent : Extent) (hs : s.length = g.total) (h : On f n s)
    (hf : ∀ j, (f j).degree < g.data) (hp : g.data ≤ s.present.length) :
    g.fillTo extent s =
      s.fill fun i => if extent.Covers g i then some (shardOn f n (Gf256.ofNat i)) else none := by
  cases extent with
  | data => exact fillData_of_first hs h.of_mem_take hf hp
  | everything =>
    have hd := fillData_of_first hs h.of_mem_take hf hp
    have hon : On f n (g.fillData s) := by
      rw [hd]
      refine h.fill fun i b hb => ?_
      split at hb
      · exact (Option.some.inj hb).symm
      · simp at hb
    have hlen : (g.fillData s).length = g.total := (length_fillTo .data s).trans hs
    have hpd : g.data ≤ (g.fillData s).present.length :=
      hp.trans (present_length_le_fillTo g .data s)
    rw [fillTo, fillParity_on hlen hon hf hpd, hd, fill_fill]
    simp only [Extent.Covers]
    congr
    funext i
    split <;> rfl

theorem length_rebuild (extent : Extent) (s : Stripe) :
    (g.rebuild extent s).2.length = s.length := by
  unfold rebuild
  split
  · rfl
  · dsimp only
    split
    · exact Stripe.length_dropEmpty s
    · exact Stripe.length_dropEmpty s
    · exact (length_fillTo extent _).trans (Stripe.length_dropEmpty s)

theorem examine_of_enough (hn : ∀ p ∈ s.present, p.2.length = n) (hp : g.data ≤ s.present.length)
    (hall : s.present.length ≠ g.total) : g.examine s = .ok true := by
  have hk := g.data_pos
  have hne : s.present ≠ [] := by
    intro h0
    rw [h0, List.length_nil] at hp
    omega
  rw [examine]
  simp only [hall, hne, or_self, if_false, Nat.not_lt.2 hp]
  refine if_neg ?_
  cases hsl : s.present with
  | nil => simp
  | cons p rest =>
    rw [hsl] at hn
    have hhead := hn p List.mem_cons_self
    rw [List.any_eq_true]
    rintro ⟨q, hq, hne⟩
    exact of_decide_eq_true hne ((hn q hq).trans hhead.symm)

theorem examine_of_few (h0 : s.present ≠ []) (hp : s.present.length < g.data) :
    g.examine s = .error (.shardsMissing s.present.length g.data) := by
  have hall : s.present.length ≠ g.total := by
    rw [total]
    omega
  rw [examine]
  simp only [hall, h0, or_self, if_false, if_pos hp]

/-- Enough shards of one length are rebuilt from. -/
theorem rebuild_of_enough (extent : Extent) (hs : s.length = g.total)
    (hn : ∀ p ∈ s.dropEmpty.present, p.2.length = n)
    (hp : g.data ≤ s.dropEmpty.present.length) :
    g.rebuild extent s = (.ok (), g.fillTo extent s.dropEmpty) := by
  have hlen : s.dropEmpty.length = g.total := by rw [length_dropEmpty, hs]
  rw [rebuild, if_neg (not_not.2 hs)]
  by_cases hall : s.dropEmpty.present.length = g.total
  · have hex : g.examine s.dropEmpty = .ok false := if_pos (Or.inl hall)
    simp only [hex]
    rw [fillTo_of_full extent (by rw [← length_present, hall, hlen])]
  · simp only [examine_of_enough hn hp hall]

/-- **Enough shards on a curve rebuild all its shards.** -/
theorem rebuild_on (extent : Extent) (hs : s.length = g.total) (h : On f n s.dropEmpty)
    (hf : ∀ j, (f j).degree < g.data) (hp : g.data ≤ s.dropEmpty.present.length) :
    g.rebuild extent s = (.ok (), s.dropEmpty.fill fun i =>
      if extent.Covers g i then some (shardOn f n (Gf256.ofNat i)) else none) := by
  have hlen : s.dropEmpty.length = g.total := by rw [length_dropEmpty, hs]
  have hn : ∀ p ∈ s.dropEmpty.present, p.2.length = n := fun p hp => by
    rw [h p.1 p.2 (mem_present.1 hp), length_shardOn]
  rw [rebuild_of_enough extent hs hn hp, fillTo_on extent hlen h hf hp]

/-! ## The shards of a block -/

theorem total_le_field (g : Geometry) : g.total ≤ 256 := g.total_le

theorem data_lt_total (g : Geometry) : g.data < g.total := by
  have := g.parity_pos
  rw [total]
  omega

theorem length_dataShards_le (g : Geometry) (b : Bytes) : (g.dataShards b).length ≤ 256 := by
  have := g.total_le_field
  have := g.data_lt_total
  rw [length_dataShards]
  omega

/-- Data shards and the shards that continue them lie on one curve. -/
theorem append_parityShards {shards : List Bytes} (hk : shards.length = g.data)
    (hn : ∀ s ∈ shards, s.length = n) :
    shards ++ g.parityShards n shards =
      (List.range g.total).map fun i => shardOn (curveThrough shards) n (Gf256.ofNat i) := by
  have hle : shards.length ≤ 256 := by
    have := g.total_le_field
    have := g.data_lt_total
    omega
  have hdata : shards =
      (List.range g.data).map fun i => shardOn (curveThrough shards) n (Gf256.ofNat i) := by
    refine List.ext_getElem (by simp [hk]) fun i hi _ => ?_
    rw [List.getElem_map, List.getElem_range, shardOn_curveThrough hle hn hi]
  have hpoints : shards.zipIdx.map Prod.swap =
      (List.range g.data).map fun i => (i, shardOn (curveThrough shards) n (Gf256.ofNat i)) := by
    refine List.ext_getElem (by simp [hk]) fun i hi _ => ?_
    have hi' : i < shards.length := by simpa using hi
    simp [shardOn_curveThrough hle hn hi']
  have hparity : g.parityShards n shards = (List.range g.parity).map fun j =>
      shardOn (curveThrough shards) n (Gf256.ofNat (g.data + j)) := by
    rw [parityShards, dataPoints, hpoints]
    refine List.map_congr_left fun j _ => ?_
    refine valuesAt_shardsOn _ n List.nodup_range (fun i hi => ?_) (fun j => ?_) _
    · have := List.mem_range.1 hi
      omega
    · rw [List.length_range, ← hk]
      exact degree_curveThrough hle j
  rw [hparity, total, List.range_add, List.map_append, List.map_map]
  exact congrArg (· ++ _) hdata

/-- The curve of a block. -/
noncomputable def curve (g : Geometry) (b : Bytes) : ℕ → Gf256[X] :=
  curveThrough (g.dataShards b)

theorem degree_curve (g : Geometry) (b : Bytes) (j : ℕ) : (g.curve b j).degree < g.data := by
  have h := degree_curveThrough (g.length_dataShards_le b) j
  rwa [length_dataShards] at h

/-- **All shards of a block lie on its curve.** -/
theorem encode_eq_shardsOn (g : Geometry) (b : Bytes) :
    g.encode b = (List.range g.total).map fun i =>
      shardOn (g.curve b) (g.shardLength b.length) (Gf256.ofNat i) :=
  append_parityShards (length_dataShards g b) fun _ => length_of_mem_dataShards

theorem getElem?_encode (g : Geometry) (b : Bytes) {i : ℕ} (hi : i < g.total) :
    (g.encode b)[i]? =
      some (shardOn (g.curve b) (g.shardLength b.length) (Gf256.ofNat i)) := by
  simp [encode_eq_shardsOn, hi]

theorem getElem?_encode_eq_getD (g : Geometry) (b : Bytes) {i : ℕ} (hi : i < g.total) :
    (g.encode b)[i]? = some ((g.encode b).getD i []) := by
  rw [← length_encode g b] at hi
  rw [List.getD_eq_getElem?_getD, List.getElem?_eq_getElem hi, Option.getD_some]

end Geometry

end ErasureVault
