/-
  What a repair writes.

  Before its shard is written to a slot, the block is put together from the shards of the others and
  checked against its id. The check does not see the bytes that fill up the last data shards: the
  slot gets the shard of the block with any filling (`owedShard_ok`, `written_of_repair`). That is
  the shard of the block where there is no filling to see, but not in general
  (`repair_of_badPadding`).
-/
import ErasureVault.Proofs.Repairs
import ErasureVault.Proofs.Tolerance

namespace ErasureVault

open Function Interpolation Polynomial

/-! ## Pieces -/

namespace Bytes

theorem getElem?_cut {k n i : ℕ} (hi : i < k) (b : Bytes) :
    (cut k n b)[i]? = some (padTo n (b.drop (i * n))) := by
  induction k generalizing i b with
  | zero => omega
  | succ k ih =>
    rw [cut]
    cases i with
    | zero => simp
    | succ i =>
      rw [List.getElem?_cons_succ, ih (by omega), List.drop_drop, Nat.succ_mul, Nat.add_comm n]

/-- Pieces that are laid end to end are cut out again. -/
theorem cut_flatten {pieces : List Bytes} {n : ℕ} (h : ∀ p ∈ pieces, p.length = n) :
    cut pieces.length n pieces.flatten = pieces := by
  induction pieces with
  | nil => rfl
  | cons p pieces ih =>
    obtain ⟨rfl, hrest⟩ := List.forall_mem_cons.1 h
    rw [List.flatten_cons, List.length_cons, cut, List.drop_left, ih hrest, padTo, List.take_left,
      Nat.sub_self, List.replicate_zero, List.append_nil]

end Bytes

namespace Geometry

open Stripe

variable {g : Geometry} {n : ℕ} {s : Stripe}

theorem shardLength_mul (g : Geometry) (n : ℕ) : g.shardLength (g.data * n) = n := by
  have hk := g.data_pos
  rw [shardLength, Nat.add_sub_assoc hk, Nat.mul_add_div hk, Nat.div_eq_of_lt (by omega),
    Nat.add_zero]

theorem length_flatten {pieces : List Bytes} (hk : pieces.length = g.data)
    (hn : ∀ p ∈ pieces, p.length = n) : pieces.flatten.length = g.data * n := by
  rw [List.length_flatten, List.map_eq_replicate_iff.2 hn, List.sum_replicate, hk, smul_eq_mul]

/-- Shards as many as a block has data shards are the data shards of what they hold. -/
theorem dataShards_flatten {pieces : List Bytes} (hk : pieces.length = g.data)
    (hn : ∀ p ∈ pieces, p.length = n) : g.dataShards pieces.flatten = pieces := by
  rw [dataShards, length_flatten hk hn, shardLength_mul, ← hk]
  exact Bytes.cut_flatten hn

theorem encode_flatten {pieces : List Bytes} (hk : pieces.length = g.data)
    (hn : ∀ p ∈ pieces, p.length = n) :
    g.encode pieces.flatten = pieces ++ g.parityShards n pieces := by
  rw [encode, dataShards_flatten hk hn, length_flatten hk hn, shardLength_mul]

/-- The filling of a block does not reach a shard that lies inside the block. -/
theorem getElem?_encode_append {b pad : Bytes} {slot : ℕ} (hslot : slot < g.data)
    (hpad : pad.length = g.data * g.shardLength b.length - b.length)
    (hin : (slot + 1) * g.shardLength b.length ≤ b.length) :
    (g.encode (b ++ pad))[slot]? = (g.encode b)[slot]? := by
  have hlen : (b ++ pad).length = g.data * g.shardLength b.length := by
    have := g.le_mul_shardLength b.length
    rw [List.length_append, hpad]
    omega
  have hdata (d : Bytes) : (g.encode d)[slot]? =
      some (Bytes.padTo (g.shardLength d.length) (d.drop (slot * g.shardLength d.length))) := by
    rw [encode, List.getElem?_append_left (by rwa [length_dataShards]), dataShards,
      Bytes.getElem?_cut hslot]
  rw [Nat.succ_mul] at hin
  have htake : ((b ++ pad).drop (slot * g.shardLength b.length)).take (g.shardLength b.length) =
      (b.drop (slot * g.shardLength b.length)).take (g.shardLength b.length) := by
    rw [List.drop_append_of_le_length (by omega), List.take_append_of_le_length]
    rw [List.length_drop]
    omega
  rw [hdata, hdata, hlen, shardLength_mul, Bytes.padTo, Bytes.padTo, htake]

/-! ## Rebuilding from any shards -/

/-- Every data shard is filled in, with its length. -/
theorem exists_of_fillData (hs : s.length = g.total) (hn : ∀ p ∈ s.present, p.2.length = n)
    (hp : g.data ≤ s.present.length) {i : ℕ} (hi : i < g.data) :
    ∃ x, (g.fillData s)[i]? = some (some x) ∧ x.length = n := by
  have hcov : Extent.data.Covers g i := hi
  have hlt := g.data_lt_total
  obtain ⟨x, hx⟩ := exists_getElem?_fillTo (show i < s.length by omega) hcov
  exact ⟨x, hx, length_of_mem_present_fillTo hn hp (i, x) (mem_present.2 hx)⟩

/-- The data shards of a stripe that lacks none of them are the first that are present. -/
theorem take_present_of_data {pieces : List Bytes} (hk : pieces.length = g.data)
    (hs : s.take g.data = pieces.map some) :
    s.present.take g.data = pieces.zipIdx.map Prod.swap := by
  have hsplit : s = pieces.map some ++ s.drop g.data := by rw [← hs, List.take_append_drop]
  have hpieces : Stripe.present (pieces.map some) = pieces.zipIdx.map Prod.swap := by
    rw [present, List.zipIdx_map, List.filterMap_map, ← List.filterMap_eq_map]
    rfl
  have hlen : (Stripe.present (pieces.map some)).length = g.data := by simp [hpieces, hk]
  rw [hsplit, present, List.zipIdx_append, List.filterMap_append, ← hlen]
  exact List.take_left.trans hpieces

/-- What is there is not filled in. -/
theorem take_fill {pieces : List Bytes} {k : ℕ} (h : s.take k = pieces.map some)
    (f : ℕ → Option Bytes) : (s.fill f).take k = pieces.map some := by
  refine List.ext_getElem? fun i => ?_
  rw [← h, List.getElem?_take, List.getElem?_take]
  split
  · next hi =>
    have hget : s[i]? = pieces[i]?.map some := by
      rw [← List.getElem?_map, ← h, List.getElem?_take, if_pos hi]
    rw [getElem?_fill, hget]
    cases pieces[i]? <;> rfl
  · rfl

/-- The data shards of a stripe that has them all. -/
theorem exists_pieces (h : ∀ i < g.data, ∃ x, s[i]? = some (some x) ∧ x.length = n) :
    ∃ pieces : List Bytes, pieces.length = g.data ∧ (∀ p ∈ pieces, p.length = n) ∧
      s.take g.data = pieces.map some := by
  set pieces : List Bytes := (s.take g.data).map fun shard => shard.getD [] with hpieces
  have hget {i : ℕ} (hi : i < g.data) :
      ∃ x, s[i]? = some (some x) ∧ pieces[i]? = some x ∧ x.length = n := by
    obtain ⟨x, hx, hlen⟩ := h i hi
    refine ⟨x, hx, ?_, hlen⟩
    rw [hpieces, List.getElem?_map, List.getElem?_take, if_pos hi, hx]
    rfl
  have hle : g.data ≤ s.length := by
    obtain ⟨x, hx, -⟩ := h (g.data - 1) (Nat.sub_lt g.data_pos Nat.one_pos)
    have := (List.getElem?_eq_some_iff.1 hx).1
    omega
  have hk : pieces.length = g.data := by
    rw [hpieces, List.length_map, List.length_take, Nat.min_eq_left hle]
  refine ⟨pieces, hk, fun p hmem => ?_, List.ext_getElem? fun i => ?_⟩
  · obtain ⟨i, hi⟩ := List.getElem?_of_mem hmem
    obtain ⟨x, -, hx, hlen⟩ := hget (hk ▸ (List.getElem?_eq_some_iff.1 hi).1)
    rw [hi, Option.some.injEq] at hx
    exact hx ▸ hlen
  · rw [List.getElem?_take, List.getElem?_map]
    split
    · obtain ⟨x, hx, hx', -⟩ := hget ‹_›
      rw [hx, hx']
      rfl
    · rw [List.getElem?_eq_none (by omega)]
      rfl

theorem payload_of_take {pieces : List Bytes} (h : s.take g.data = pieces.map some) (size : ℕ) :
    g.payload size s = pieces.flatten.take size := by
  have hid : ((fun shard : Option Bytes => shard.getD []) ∘ some) = id := rfl
  rw [payload, h, List.map_map, hid, List.map_id]

/-- **The shard that is rebuilt for a slot is that of what the data shards hold**, once those are
rebuilt. -/
theorem exists_data_of_fillTo {slot : ℕ} (hs : s.length = g.total)
    (hn : ∀ p ∈ s.present, p.2.length = n) (hp : g.data ≤ s.present.length)
    (hslot : s[slot]? = some none) :
    let s' := g.fillTo (if g.data ≤ slot then .everything else .data) s
    ∃ data, data.length = g.data * n ∧ (∀ size, g.payload size s' = data.take size) ∧
      s'[slot]? = (g.encode data)[slot]?.map some := by
  intro s'
  have hlt : slot < g.total := by
    rw [← hs]
    exact (List.getElem?_eq_some_iff.1 hslot).1
  obtain ⟨pieces, hk, hlength, htake⟩ := exists_pieces fun i hi => exists_of_fillData hs hn hp hi
  have hencode := encode_flatten hk hlength
  refine ⟨pieces.flatten, length_flatten hk hlength, ?_⟩
  by_cases hdata : g.data ≤ slot
  · -- a parity shard is computed from the data shards
    have hs' : s' = g.fillParity (g.fillData s) := by
      simp only [s', hdata, if_true]
      rfl
    have hbasis : g.basis (g.fillData s) = dataPoints n pieces := by
      rw [basis, take_present_of_data hk htake, dataPoints]
      cases hl : pieces with
      | nil =>
        have := g.data_pos
        rw [hl, List.length_nil] at hk
        omega
      | cons p rest =>
        have hp : p.length = n := hlength p (hl ▸ List.mem_cons_self)
        exact congrArg (Interpolation.Points.ofShards · _) hp
    have hcov : ¬ Extent.data.Covers g slot := Nat.not_lt.2 hdata
    have hnone : (g.fillData s)[slot]? = some none :=
      (getElem?_fillTo_of_not_covers hcov).trans hslot
    rw [hs', fillParity]
    refine ⟨payload_of_take (take_fill htake _), ?_⟩
    rw [getElem?_fill, hnone, hbasis, hencode, List.getElem?_append_right (by omega), hk,
      parityShards, List.getElem?_map, List.getElem?_range (by rw [total] at hlt; omega)]
    simp only [Option.map_some, Nat.add_sub_cancel' hdata]
    rfl
  · have hs' : s' = g.fillData s := by
      simp only [s', hdata, if_false]
      rfl
    rw [hs']
    refine ⟨payload_of_take htake, ?_⟩
    have hget := congrArg (·[slot]?) htake
    simp only [List.getElem?_take, if_pos (Nat.lt_of_not_le hdata), List.getElem?_map] at hget
    rw [hget, hencode, List.getElem?_append_left (by omega)]

/-- **The shard that a slot is owed is that of the block with any filling.** -/
theorem owedShard_ok {id : Digest} {slot size : ℕ} {x : Bytes} (hs : s.length = g.total)
    (hn : ∀ p ∈ s.present, p.2.length = g.shardLength size ∧ p.2 ≠ [])
    (hslot : s[slot]? = some none) (h : g.owedShard slot id size s = .ok x) :
    ∃ (b : Block) (pad : Bytes), b.id = id ∧ b.size = size ∧
      pad.length = g.data * g.shardLength size - size ∧
      (g.encode (b.data ++ pad))[slot]? = some x := by
  obtain ⟨s', b, hs', hb, hx⟩ := owedShard_eq_ok_iff.1 h
  obtain ⟨hid, hdata⟩ := Block.ofParts_eq_ok_iff.1 hb
  have hdrop := dropEmpty_of_ne_nil fun p hp => (hn p hp).2
  have hlt : slot < g.total := by
    rw [← hs]
    exact (List.getElem?_eq_some_iff.1 hslot).1
  rcases Nat.eq_zero_or_pos size with rfl | hpos
  · -- an empty block has only empty shards
    have h0 : g.shardLength 0 = 0 := shardLength_eq_zero_iff.2 rfl
    have hnone : s.present = [] := List.eq_nil_iff_forall_not_mem.2 fun p hp =>
      (hn p hp).2 (List.length_eq_zero_iff.1 ((hn p hp).1.trans h0))
    rw [restored_of_enough fun h => absurd h (Nat.lt_irrefl 0),
      rebuild_of_none _ hs (by rwa [hdrop]), hdrop] at hs'
    obtain rfl := Except.ok.inj hs'
    rw [shardOf, hslot] at hx
    obtain rfl := Except.ok.inj hx
    rw [payload, List.take_zero] at hdata
    have hget := g.getElem?_encode_eq_getD [] hlt
    have hlen := length_of_mem_encode (List.mem_of_getElem? hget)
    rw [List.length_nil, h0] at hlen
    refine ⟨b, [], hid, by rw [Block.size, hdata, List.length_nil], by simp [h0], ?_⟩
    rw [hdata, List.append_nil, hget, List.length_eq_zero_iff.1 hlen]
  · have hp : g.data ≤ s.present.length := by
      by_contra hfew
      rw [Stripe.length_present, Nat.not_le] at hfew
      rw [restored, if_pos ⟨hpos, hfew⟩] at hs'
      simp at hs'
    obtain ⟨data, hlen, hpayload, hshard⟩ :=
      exists_data_of_fillTo hs (fun p hp => (hn p hp).1) hp hslot
    rw [restored_of_enough fun _ => hp, rebuild_of_enough _ hs (n := g.shardLength size)
      (by rw [hdrop]; exact fun p hp => (hn p hp).1) (by rwa [hdrop]), hdrop] at hs'
    obtain rfl := Except.ok.inj hs'
    rw [hpayload] at hdata
    have hle := g.le_mul_shardLength size
    refine ⟨b, data.drop size, hid, ?_, by rw [List.length_drop, hlen], ?_⟩
    · rw [Block.size, hdata, List.length_take, hlen, Nat.min_eq_left hle]
    · rw [shardOf, hshard, g.getElem?_encode_eq_getD data hlt] at hx
      rw [hdata, List.take_append_drop, g.getElem?_encode_eq_getD data hlt]
      exact congrArg some (Except.ok.inj hx)

/-- The entry is the record of a block and the shard of a slot of it, with any filling. -/
def Filled (g : Geometry) (b : Block) (slot : ℕ) (entry : Option Bytes × Option Bytes) : Prop :=
  ∃ r pad, SizeRecord.ofSize b.size = .ok r ∧
    pad.length = g.data * g.shardLength b.size - b.size ∧
    entry = (some r.encode, (g.encode (b.data ++ pad))[slot]?)

/-- Where there is no filling to see, the shard is that of the block. -/
theorem Filled.eq {b : Block} {slot : ℕ} {entry : Option Bytes × Option Bytes}
    (h : g.Filled b slot entry)
    (hin : g.data ∣ b.size ∨ slot < g.data ∧ (slot + 1) * g.shardLength b.size ≤ b.size) :
    ∃ r, SizeRecord.ofSize b.size = .ok r ∧ entry = (some r.encode, (g.encode b.data)[slot]?) := by
  obtain ⟨r, pad, hr, hpad, rfl⟩ := h
  refine ⟨r, hr, ?_⟩
  rcases hin with ⟨n, hn⟩ | ⟨hslot, hin⟩
  · rw [hn, shardLength_mul, Nat.sub_self, List.length_eq_zero_iff] at hpad
    rw [hpad, List.append_nil]
  · rw [getElem?_encode_append hslot hpad hin]

end Geometry

/-! ## Repairs -/

section
variable {l : Layout} {token : Token} {slot : ℕ} {id : Digest} {entry : Option Bytes × Option Bytes}

/-- The node holds the given entry under a key, or what a repair writes for a block with it. -/
def Node.Mended (g : Geometry) (slot : ℕ) (id : Digest) (entry : Option Bytes × Option Bytes)
    (n : Node) : Prop :=
  n.store.held (Text.utf8 id.key) = entry ∨
    ∃ b : Block, b.id = id ∧ g.Filled b slot (n.store.held (Text.utf8 id.key))

theorem Node.Mended.after {g : Geometry} {n n' : Node} {k : ℕ} (h : n.Mended g slot id entry)
    (hn : n.After k n') : n'.Mended g slot id entry := by
  rw [Node.Mended, hn.held]
  exact h

/-- What is known of the slot that is repaired, whatever the others answer. -/
def mending (l : Layout) (token : Token) (id : Digest) (entry : Option Bytes × Option Bytes)
    (hslot : slot < l.geometry.total) (key : String) : Repairing l token slot key where
  before i n := i = slot → n.Mended l.geometry slot id entry
  probed _ n := slot = slot → n.Mended l.geometry slot id entry
  record _ _ := True
  sized i n := i = slot → n.Mended l.geometry slot id entry
  shard i a := i = slot → ∀ x, a = .ok x → x = []
  fetched i n := i = slot → n.Mended l.geometry slot id entry
  stored _ n := slot = slot → n.Mended l.geometry slot id entry
  probe start n hn hi := (hn hi).after (Node.after_getRecord _ slot key n)
  size e start i n _ hn := by
    rw [update_eq_self] at hn
    exact ⟨fun hi => (hn hi).after (Node.after_getSize _ i key n), trivial⟩
  fetch start i n _ hn := by
    refine ⟨fun hi => (hn hi).after (Node.after_getUnless _ i key _ n), ?_⟩
    rintro rfl x hx
    exact Node.eq_nil_of_left rfl hx
  put id' m s x r hkey hs hx hr start n hn hi := by
    have hm : n.Mended l.geometry slot id entry := by
      split at hn <;> exact hn rfl
    have hframe := Node.callNode_frame ⟨"put", token, l.limit, start⟩ slot .put
      (Store.put key r.encode x) (fun _ a => a) n
    rw [Node.Mended, Node.put]
    rcases hframe.2.2 with hst | hst
    · rw [hst]
      exact hm
    rw [hst]
    rcases Store.put_cases key r.encode x n.store with ⟨e, he⟩ | ⟨st, hput, hheld, -⟩
    · rw [he]
      exact hm
    rw [hput, hheld]
    by_cases hid : key = id.key
    · obtain rfl : id' = id := Digest.key_injective (hkey.symm.trans hid)
      obtain ⟨b, pad, hb, rfl, hpad, hget⟩ := Geometry.owedShard_ok hs.collected.length_eq
        (fun p hp => (hs.collected.of_mem_present hp).2)
        (hs.collected.getElem?_eq_none hslot fun y hy => hy rfl y rfl) hx
      refine Or.inr ⟨b, hb, r, pad, hr, hpad, ?_⟩
      rw [hid, update_self, hget]
    · rw [update_of_ne fun h => hid (Text.utf8_injective h).symm]
      exact hm

end

namespace Cluster

/-- **What a repair writes.** Whatever the other slots hold and answer, and however the repair ends,
the repaired slot holds under the key of a block what it held before, or the record of the block
and its own shard of the block with any filling. That is the shard of the block if the data shards
need no filling, or if the slot is one of theirs and its shard has none. -/
theorem written_of_repair {c : Cluster} (hc : c.Bound) (token : Token) (source slot : ℕ)
    (id : Digest) :
    let after := ((Cluster.repair token source slot).run c).2.2
    after.Bound ∧ ∀ n n', c.slotNode? slot = some n → after.slotNode? slot = some n' →
      let entry := n'.store.held (Text.utf8 id.key)
      entry = n.store.held (Text.utf8 id.key) ∨
        ∃ b : Block, b.id = id ∧ c.geometry.Filled b slot entry ∧
          (c.geometry.data ∣ b.size ∨ slot < c.geometry.data ∧
              (slot + 1) * c.geometry.shardLength b.size ≤ b.size →
            ∃ r, SizeRecord.ofSize b.size = .ok r ∧
              entry = (some r.encode, (c.geometry.encode b.data)[slot]?)) := by
  intro after
  set entry : Option Bytes × Option Bytes :=
    ((c.slotNode? slot).map fun n => n.store.held (Text.utf8 id.key)).getD (none, none) with hentry
  have hafter : after.Each c.layout fun i n => i = slot → n.Mended c.geometry slot id entry := by
    refine (Op.Triple.repair_preserves source (fun i n hn hi => (hn hi).after n.after_tick)
      fun hslot key => Op.Triple.repairKey_preserves (mending c.layout token id entry hslot key)
        rfl rfl rfl (fun _ => rfl) (fun _ => rfl) hslot).run_cluster ⟨rfl, hc, fun i n hn hi => ?_⟩
    refine Or.inl ?_
    rw [hentry, ← hi, hn]
    rfl
  refine ⟨hafter.bound, fun n n' hn hn' => ?_⟩
  have hold : entry = n.store.held (Text.utf8 id.key) := by
    rw [hentry, hn]
    rfl
  rcases hafter.nodes slot n' hn' rfl with h | ⟨b, hb, hfilled⟩
  · exact Or.inl (h.trans hold)
  · exact Or.inr ⟨b, hb, hfilled, hfilled.eq⟩

/-- Three slots, of which two hold their shards of three bytes; the filling of the second shard,
which should be zero, is not. The third slot is empty. -/
def badPadding (key : String) : Cluster where
  codec := .ofGeometry .twoAndOne 0
  policy := .quorum
  limit := none
  slots := [⟨"", 0⟩, ⟨"", 1⟩, ⟨"", 2⟩]
  nodes := [holding key [3, 0, 0, 0] [1, 2], holding key [3, 0, 0, 0] [3, 1],
    .ofStore "" (.memory (.empty 0))]
  journal := []

/-- What the third slot holds after a repair is the shard of a block with some filling. -/
theorem written_of_badPadding :
    let b : Block := ⟨.blake3, [1, 2, 3]⟩
    let c := badPadding b.id.key
    c.Bound ∧ ∀ n', ((Cluster.repair .never 0 2).run c).2.2.slotNode? 2 = some n' →
      let entry := n'.store.held (Text.utf8 b.id.key)
      entry = (none, none) ∨ ∃ b', b'.id = b.id ∧ Geometry.twoAndOne.Filled b' 2 entry := by
  intro b c
  have hc : c.Bound := ⟨rfl, by decide, by decide⟩
  refine ⟨hc, fun n' hn' => ?_⟩
  rcases (written_of_repair hc .never 0 2 b.id).2 _ n' rfl hn' with h | ⟨b', hb', hfilled, -⟩
  · exact Or.inl h
  · exact Or.inr ⟨b', hb', hfilled⟩

set_option maxRecDepth 100000 in
/-- A repair succeeds, and writes a parity shard that is not that of the block. -/
theorem repair_of_badPadding :
    let b : Block := ⟨.blake3, [1, 2, 3]⟩
    let repaired := (Cluster.repair .never 0 2).run (badPadding b.id.key)
    repaired.1 = .ok ⟨1, 1, 0, 2⟩ ∧
      (repaired.2.2.slotNode? 2).map (fun n => n.store.held (Text.utf8 b.id.key)) =
        some (some [3, 0, 0, 0], some [5, 4]) ∧
      (Geometry.twoAndOne.encode b.data)[2]? = some [5, 6] := by
  decide +kernel

end Cluster

end ErasureVault
