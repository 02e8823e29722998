/-
  Enough good answers.

  * `Told r good` and `Given g b good`: a slot answers with nothing but the record `r`, and with
    nothing but its shard of the block `b`, and the slots in `good` do answer. If those are as many
    as a block has data shards, its size is agreed on (`Agreed.eq_ok`), and the shards that are
    collected are its own and enough (`Collected.of_given`);
  * `Cluster.Serves`: a slot answers so when it is asked for its parts of a block
    (`Serves.of_holds`); a block that enough slots serve is read (`get_answered`).
-/
import ErasureVault.Proofs.Repairs

namespace ErasureVault

open Quorum

/-! ## Counting answers -/

theorem countP_eq_card_filter {α : Type} (p : α → Bool) (l : List α) :
    l.countP p = {i ∈ Finset.range l.length | (l[i]?).any p}.card := by
  refine countP_eq_card (Finset.filter_subset ..) fun i a ha => ?_
  have hi : i < l.length := (List.getElem?_eq_some_iff.1 ha).1
  rw [Finset.mem_filter, Finset.mem_range, ha, Option.any_some, and_iff_right hi]

/-- Elements at some places are at most all of them. -/
theorem card_le_countP {α : Type} {p : α → Bool} {l : List α} {places : Finset ℕ}
    (h : ∀ i ∈ places, ∃ a, l[i]? = some a ∧ p a) : places.card ≤ l.countP p := by
  rw [countP_eq_card_filter]
  refine Finset.card_le_card fun i hi => ?_
  obtain ⟨a, ha, hp⟩ := h i hi
  rw [Finset.mem_filter, Finset.mem_range, ha]
  exact ⟨(List.getElem?_eq_some_iff.1 ha).1, hp⟩

variable {g : Geometry} {b : Block} {good : Finset ℕ}

/-! ## Parts of blocks -/

namespace Block

/-- The size of the block fits into a record. -/
def Fits (b : Block) : Prop :=
  b.size ≤ SizeRecord.maxSize

instance (b : Block) : Decidable b.Fits :=
  inferInstanceAs (Decidable (_ ≤ _))

/-- The record of a block that fits. -/
def record (b : Block) : SizeRecord :=
  ⟨Int32.ofNat b.size⟩

theorem ofSize_eq_ok_iff {b : Block} {r : SizeRecord} :
    SizeRecord.ofSize b.size = .ok r ↔ b.Fits ∧ r = b.record := by
  rw [SizeRecord.ofSize]
  split
  · rw [Except.ok.injEq, eq_comm]
    exact (and_iff_right ‹_›).symm
  · exact iff_of_false (by simp) fun h => absurd h.1 ‹_›

theorem Fits.ofSize {b : Block} (h : b.Fits) : SizeRecord.ofSize b.size = .ok b.record :=
  ofSize_eq_ok_iff.2 ⟨h, rfl⟩

theorem Fits.size_record {b : Block} (h : b.Fits) : b.record.size = b.size :=
  (SizeRecord.ofSize_eq_ok_iff.1 h.ofSize).2

theorem Fits.decode {b : Block} (h : b.Fits) :
    SizeRecord.decode b.record.encode = .ok b.record :=
  SizeRecord.decode_eq_ok_iff.2 ⟨(SizeRecord.ofSize_eq_ok_iff.1 h.ofSize).1, rfl⟩

end Block

/-- What a slot holds of a block: its record and the shard of the slot. -/
def Geometry.part (g : Geometry) (b : Block) (slot : ℕ) : Option Bytes × Option Bytes :=
  (some b.record.encode, (g.encode b.data)[slot]?)

/-! ## Sizes -/

/-- The slots in `good` answer with the record `r`, and none with another. -/
def Told (r : SizeRecord) (good : Finset ℕ) (i : ℕ) (a : Outcome SizeRecord) : Prop :=
  (i ∈ good → a = .ok r) ∧ ∀ r', a = .ok r' → r' = r

/-- **The size that enough slots tell is agreed on**, if none tells another. -/
theorem Agreed.eq_ok {r : SizeRecord} {key : String} {o : Outcome ℕ}
    (h : Agreed g key .never (Told r good) o) (hgood : good ⊆ Finset.range g.total)
    (hk : g.data ≤ good.card) : o = .ok r.size := by
  obtain ⟨canceled, records, hcanceled, hlen, htold, rfl⟩ := h
  have hpos := g.data_pos
  have hq : g.data ≤ support (.ok r) records := by
    refine hk.trans (card_le_countP fun i hi => ?_)
    have hlt : i < records.length := hlen.symm ▸ Finset.mem_range.1 (hgood hi)
    have hget := List.getElem?_eq_getElem hlt
    exact ⟨_, hget, by rw [(htold i _ hget).1 hi, Outcome.same_self]⟩
  rw [hcanceled rfl]
  refine concludeSize_of_majority hpos hq fun r' hne => ?_
  have hzero : support (.ok r') records = 0 := by
    refine Nat.eq_zero_of_not_pos fun hr' => hne ?_
    obtain ⟨i, hi⟩ := List.getElem?_of_mem (support_pos_iff.1 hr')
    exact (htold i _ hi).2 r' rfl
  omega

/-! ## Shards -/

/-- The slots in `good` answer with their shard of the block, and none with anything else. -/
def Given (g : Geometry) (b : Block) (good : Finset ℕ) (i : ℕ) (a : Outcome Bytes) : Prop :=
  (i ∈ good → ∃ x, a = .ok x ∧ (g.encode b.data)[i]? = some x) ∧
    ∀ x, a = .ok x → x = [] ∨ (g.encode b.data)[i]? = some x

theorem Collected.of_given {s : Stripe}
    (h : Collected g b.size (fun i a => 0 < b.size → Given g b good i a) s)
    (hgood : good ⊆ Finset.range g.total) :
    s.Of g b ∧ (0 < b.size → good.card ≤ s.present.length) := by
  replace h : Collected g b.size (Given g b good) s := h.mono fun h0 _ _ ha =>
    ha (Nat.pos_of_ne_zero fun hb => h0 (Geometry.shardLength_eq_zero_iff.2 hb))
  refine ⟨.of_collected (h.mono fun _ i a ha => ha.2), fun hpos => ?_⟩
  obtain ⟨h0, -⟩ | ⟨-, answers, hlen, hgiven, rfl⟩ := h
  · exact absurd (Geometry.shardLength_eq_zero_iff.1 h0) hpos.ne'
  · rw [Stripe.length_present]
    refine card_le_countP fun i hi => ?_
    have hlt : i < answers.length := hlen.symm ▸ Finset.mem_range.1 (hgood hi)
    have hget := List.getElem?_eq_getElem hlt
    obtain ⟨x, hx, hencode⟩ := (hgiven i _ hget).1 hi
    have hn := Geometry.length_of_mem_encode (List.mem_of_getElem? hencode)
    rw [hx] at hget
    have hmem : (i, x) ∈ (screen (g.shardLength b.size) answers).present :=
      mem_present_screen.2 ⟨hget, hn⟩
    exact ⟨_, Stripe.mem_present.1 hmem, rfl⟩

/-! ## Slots that hold their part -/

/-- The node of a slot holds its part of a block. -/
def Node.HoldsPart (g : Geometry) (b : Block) (slot : ℕ) (n : Node) : Prop :=
  n.store.held (Text.utf8 b.id.key) = g.part b slot

namespace Node.HoldsPart

variable {n : Node} {i : ℕ} {limit : Option ℕ}

theorem after {k : ℕ} {n' : Node} (h : n.HoldsPart g b i) (hn : n.After k n') :
    n'.HoldsPart g b i := by
  rw [Node.HoldsPart, hn.held]
  exact h

/-- A slot that holds its part and is reached tells the size. -/
theorem told (h : n.HoldsPart g b i) (hb : b.Fits)
    (hpass : (n.weather n.calls .getRecord).Passes limit) (label : String) (start : ℕ) :
    (callNode ⟨label, .never, limit, start⟩ i (Node.getSize b.id.key) n).1.outcome =
      .ok b.record := by
  have hread : (callNode ⟨label, .never, limit, start⟩ i (Node.getRecord b.id.key) n).1.outcome =
      .ok b.record.encode :=
    (callNode_of_passes hpass).1.trans (storedRecord_of_held (congrArg Prod.fst h))
  rw [Node.outcome_getSize, hread]
  exact hb.decode

/-- A slot that holds its part and is reached gives its shard. -/
theorem given (h : n.HoldsPart g b i) (hi : i < g.total)
    (hpass : (n.weather n.calls .get).Passes limit) (label : String) (start : ℕ) :
    ∃ x, (callNode ⟨label, .never, limit, start⟩ i (Node.get b.id.key) n).1.outcome = .ok x ∧
      (g.encode b.data)[i]? = some x := by
  have hget := g.getElem?_encode_eq_getD b.data hi
  refine ⟨_, (callNode_of_passes hpass).1.trans (storedShard_of_held ?_), hget⟩
  rw [show n.store.held (Text.utf8 b.id.key) = _ from h, Geometry.part, hget]

end Node.HoldsPart

/-! ## Slots that serve -/

namespace Cluster

/-- Asked for its parts of the block after `calls` other calls, the slot answers with nothing else,
and it does answer if it is in `good`. -/
structure Serves (c : Cluster) (b : Block) (good : Finset ℕ) (calls i : ℕ) : Prop where
  record : ∀ start n, c.Since calls i n → Told b.record good i
    (callNode ⟨"get_meta", .never, c.limit, start⟩ i (Node.getSize b.id.key) n).1.outcome
  shard : 0 < b.size → ∀ start n, c.Since (calls + 1) i n → Given c.geometry b good i
    (callNode ⟨"get", .never, c.limit, start⟩ i (Node.get b.id.key) n).1.outcome

/-- **A slot that holds its part of the block, or nothing in its place, serves it** if it gives
nothing but what it holds, and if it is reached when it should answer. -/
theorem Serves.of_holds {c : Cluster} {i : ℕ} (hc : c.Bound) (hb : b.Fits)
    (hholds : ∀ n, c.slotNode? i = some n → n.HoldsPart c.geometry b i ∨
      n.store.held (Text.utf8 b.id.key) = (none, none))
    (hrecord : ∀ k n start x, c.Since k i n →
      (callNode ⟨"get_meta", .never, c.limit, start⟩ i (Node.getRecord b.id.key) n).1.outcome = .ok x →
      (n.store.held (Text.utf8 b.id.key)).1 = some x)
    (hshard : ∀ k n start x, c.Since k i n →
      (callNode ⟨"get", .never, c.limit, start⟩ i (Node.get b.id.key) n).1.outcome = .ok x →
      (n.store.held (Text.utf8 b.id.key)).2 = some x)
    (hgood : i ∈ good → ∀ n, c.slotNode? i = some n → n.HoldsPart c.geometry b i ∧
      ∀ t ≥ n.calls, ∀ m, (n.weather t m).Passes c.limit) (calls : ℕ) :
    c.Serves b good calls i := by
  -- a slot that gives something holds its part
  have hpart {k : ℕ} {n : Node} (hn : c.Since k i n)
      (hsome : n.store.held (Text.utf8 b.id.key) ≠ (none, none)) : n.HoldsPart c.geometry b i := by
    obtain ⟨n₀, hn₀, hafter⟩ := hn
    rw [hafter.held] at hsome
    exact ((hholds n₀ hn₀).resolve_right hsome).after hafter
  have hpass {k : ℕ} {n : Node} (hi : i ∈ good) (hn : c.Since k i n) (m : Method) :
      n.HoldsPart c.geometry b i ∧ (n.weather n.calls m).Passes c.limit := by
    obtain ⟨n₀, hn₀, hafter⟩ := hn
    obtain ⟨hheld, hlives⟩ := hgood hi n₀ hn₀
    refine ⟨hheld.after hafter, ?_⟩
    rw [hafter.weather]
    exact hlives _ (hafter.calls ▸ Nat.le_add_right ..) m
  refine ⟨fun start n hn => ⟨fun hi => ?_, fun r hr => ?_⟩,
    fun _ start n hn => ⟨fun hi => ?_, fun x hx => ?_⟩⟩
  · obtain ⟨hheld, hreached⟩ := hpass hi hn .getRecord
    exact hheld.told hb hreached "get_meta" start
  · obtain ⟨x, hx, hdecode⟩ := Node.getSize_ok hr
    have hheld := hrecord calls n start x hn hx
    have hn := hpart hn fun hnone => by simp [hnone] at hheld
    rw [show n.store.held (Text.utf8 b.id.key) = _ from hn] at hheld
    obtain rfl := Option.some.inj hheld
    exact Except.ok.inj (hdecode.symm.trans hb.decode)
  · obtain ⟨hheld, hreached⟩ := hpass hi hn .get
    obtain ⟨n₀, hn₀, -⟩ := hn
    exact hheld.given (hc.lt_total hn₀) hreached "get" start
  · have hheld := hshard _ n start x hn hx
    have hn := hpart hn fun hnone => by simp [hnone] at hheld
    rw [show n.store.held (Text.utf8 b.id.key) = _ from hn] at hheld
    exact Or.inr hheld

/-- The same for honest slots. -/
theorem Serves.of_honest {c : Cluster} {i : ℕ} (hc : c.Bound) (hb : b.Fits)
    (hhonest : ∀ n, c.slotNode? i = some n → n.Honest)
    (hholds : ∀ n, c.slotNode? i = some n → n.HoldsPart c.geometry b i ∨
      n.store.held (Text.utf8 b.id.key) = (none, none))
    (hgood : i ∈ good → ∀ n, c.slotNode? i = some n → n.HoldsPart c.geometry b i ∧
      ∀ t ≥ n.calls, ∀ m, (n.weather t m).Passes c.limit) (calls : ℕ) :
    c.Serves b good calls i := by
  refine .of_holds hc hb hholds (fun k n start x hn hx => ?_) (fun k n start x hn hx => ?_) hgood calls
  · obtain ⟨n₀, hn₀, hafter⟩ := hn
    exact Node.storedRecord_ok ((hafter.honest (hhonest n₀ hn₀)).callNode_ok hx)
  · obtain ⟨n₀, hn₀, hafter⟩ := hn
    exact Node.storedShard_ok ((hafter.honest (hhonest n₀ hn₀)).callNode_ok hx)

end Cluster

/-! ## Reading -/

namespace Op.Triple

variable {c : Cluster}

/-- **The size of a block is agreed on if enough slots tell it**, and none tells another. -/
theorem agreedSize_told (hb : b.Fits) (h2 : 2 ≤ c.geometry.data)
    (hgood : good ⊆ Finset.range c.geometry.total) (hk : c.geometry.data ≤ good.card)
    (hserves : ∀ i, c.Serves b good 0 i) :
    Triple (Cluster.Each c.layout (c.Since 0)) (Cluster.agreedSize .never b.id)
      (fun n c' => n = b.size ∧ c'.Each c.layout (c.Since 1)) fun _ _ => False := by
  refine (agreedSize_each fun start i n _ hn => ⟨hn.after (Node.after_getSize _ i b.id.key n),
    (hserves i).record start n hn⟩).conseq (fun _ hc => hc) (fun n c h => ⟨?_, h.2⟩) fun e c h => ?_
  · exact (Except.ok.inj (h.1.eq_ok hgood hk)).trans hb.size_record
  · rcases h with ⟨⟨-, ht⟩ | ⟨h2', -⟩, -⟩ | ⟨h, -⟩
    · exact ht rfl
    · exact absurd h2 (Nat.not_le.2 h2')
    · simpa using h.eq_ok hgood hk

/-- **A block is read if enough slots answer well**, and none gives anything else. -/
theorem get_answered (hb : b.Fits) (h2 : 2 ≤ c.geometry.data)
    (hgood : good ⊆ Finset.range c.geometry.total) (hk : c.geometry.data ≤ good.card)
    (hserves : ∀ i, c.Serves b good 0 i) :
    Triple (Cluster.Each c.layout (c.Since 0)) (Cluster.get .never b.id) (fun b' _ => b' = b)
      fun _ _ => False := by
  unfold Cluster.get
  refine timed ?_ (fun _ _ _ h => h) fun _ _ _ h => h
  refine bind (agreedSize_told hb h2 hgood hk hserves) fun n => of_each ?_
  rintro c₁ ⟨rfl, hc₁⟩
  refine bind (((collect_each (J := fun _ _ => True)
    (R := fun i a => 0 < b.size → Given c.geometry b good i a) fun start i n _ hn =>
      ⟨trivial, fun hpos => (hserves i).shard hpos start n hn⟩).each hc₁).imp_error
        fun _ _ h => h.1.2 rfl) fun s => of_each ?_
  rintro c₂ ⟨hs, hc₂⟩
  obtain ⟨hof, hp⟩ := hs.of_given hgood
  obtain ⟨s', hs'⟩ := hof.exists_restored (fun h0 => hk.trans (hp h0)) .data
  refine bind (((restore_each .data b.size s).each hc₂).imp_error fun e _ h => ?_)
    fun s'' => of_each ?_
  · simp [hs'] at h
  rintro c₃ ⟨h, hc₃⟩
  obtain rfl : s' = s'' := Except.ok.inj (hs'.symm.trans h)
  refine cluster.bind fun c₄ => of_each ?_
  rintro _ ⟨rfl, rfl⟩
  have hparts : Block.ofParts b.id (c₄.geometry.payload b.size s') = .ok b := by
    rw [hc₃.geometry, (hof.restored_ok hs').1]
    exact Block.ofParts_eq_ok_iff.2 ⟨rfl, rfl⟩
  rw [hparts]
  exact ofOutcome (fun b' _ _ h => (Except.ok.inj h).symm) fun _ _ _ h => by simp at h

end Op.Triple

end ErasureVault
