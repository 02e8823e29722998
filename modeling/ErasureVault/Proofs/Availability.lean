/-
  When a block that was written can be read.

  * `Cluster.Scene c b stored dead`: the cluster does not hold the block `b`; when it is written,
    exactly the slots in `stored` store their shard, and afterwards the slots in `dead` fail every
    call while the others answer. Hence the cluster that is left, `Cluster.Written`;
  * such a block is read exactly if enough slots stored it and live (`availability_of_put`): under
    a quorum at once, and after the loss of as many slots as there are parity shards, but no more.
-/
import ErasureVault.Proofs.Contents
import ErasureVault.Proofs.Recovery
import ErasureVault.Proofs.Write

namespace ErasureVault

open Quorum

/-! ## Nodes that hold a key -/

/-- The node works, holds the given entry under a key, and from now on answers every call in time
if it lives, and no call if not. -/
structure Node.Keeps (limit : Option ℕ) (k : Bytes) (entry : Option Bytes × Option Bytes)
    (alive : Prop) (n : Node) : Prop where
  unlimited : n.store.Unlimited
  held : n.store.held k = entry
  passes : alive → ∀ t ≥ n.calls, ∀ m, (n.weather t m).Passes limit
  fails : ¬ alive → ∀ t ≥ n.calls, ∀ m, (n.weather t m).Fails limit fun e => ¬ e.isCanceled

namespace Node.Keeps

variable {α : Type} {limit : Option ℕ} {key : String} {entry : Option Bytes × Option Bytes}
  {alive : Prop} {n : Node} {label : String} {start slot : ℕ}

/-- Calls that change nothing that is held keep what the node keeps. -/
theorem callNode (h : n.Keeps limit (Text.utf8 key) entry alive) {m : Method}
    {work : Store → StoreResult α} {forge : Bytes → α → α}
    (hu : (work n.store).2.Unlimited) (hh : (work n.store).2.held = n.store.held) (t : Terms) :
    (callNode t slot (Node.call m work forge) n).2.Keeps limit (Text.utf8 key) entry alive := by
  obtain ⟨hw, hcalls, hs⟩ := callNode_frame t slot m work forge n
  constructor
  · rcases hs with hs | hs
    · exact hs ▸ h.unlimited
    · exact hs ▸ hu
  · rcases hs with hs | hs
    · exact hs ▸ h.held
    · rw [hs, hh, h.held]
  · intro ha t' ht m'
    rw [hw]
    exact h.passes ha t' (by omega) m'
  · intro ha t' ht m'
    rw [hw]
    exact h.fails ha t' (by omega) m'

theorem getRecord (h : n.Keeps limit (Text.utf8 key) entry alive) (t : Terms) :
    (ErasureVault.callNode t slot (Node.getRecord key) n).2.Keeps limit (Text.utf8 key) entry
      alive := by
  have hread := unread_storedRecord key n.store
  refine h.callNode ?_ (Store.held_eq_of_unread hread) t
  rw [← Store.unlimited_unread, hread, Store.unlimited_unread]
  exact h.unlimited

theorem outcome_getRecord (h : n.Keeps limit (Text.utf8 key) entry alive) (ha : alive) :
    (ErasureVault.callNode ⟨label, .never, limit, start⟩ slot (Node.getRecord key) n).1.outcome =
      absent key entry.1 := by
  refine (callNode_of_passes (h.passes ha _ (Nat.le_refl _) _)).1.trans ?_
  rw [storedRecord, found_of_ok (h.unlimited.getRecord key), h.held]

theorem outcome_get (h : n.Keeps limit (Text.utf8 key) entry alive) (ha : alive) :
    (ErasureVault.callNode ⟨label, .never, limit, start⟩ slot (Node.get key) n).1.outcome =
      absent key entry.2 := by
  refine (callNode_of_passes (h.passes ha _ (Nat.le_refl _) _)).1.trans ?_
  rw [storedShard, found_of_ok (h.unlimited.get key), h.held]

theorem outcome_of_dead (h : n.Keeps limit (Text.utf8 key) entry alive) (ha : ¬ alive) (m : Method)
    (work : Store → StoreResult α) (forge : Bytes → α → α) :
    ∃ e : Failure, ¬ e.isCanceled ∧ (ErasureVault.callNode ⟨label, .never, limit, start⟩ slot
      (Node.call m work forge) n).1.outcome = .error e := by
  refine (callNode_of_fails (fun e he => ?_) (h.fails ha _ (Nat.le_refl _) _)).1
  simp [Failure.isCanceled, he]

end Node.Keeps

namespace Cluster

/-! ## Written blocks -/

/-- What a slot holds of a block if it stored its shard. -/
def entryOf (g : Geometry) (b : Block) (r : SizeRecord) (stored : Finset ℕ) (i : ℕ) :
    Option Bytes × Option Bytes :=
  if i ∈ stored then (some r.encode, (g.encode b.data)[i]?) else (none, none)

/-- The slots in `stored`, and no others, hold their shard of the block; those in `dead` answer no
call any more, the others every call. -/
structure Written (b : Block) (stored dead : Finset ℕ) (c : Cluster) : Prop where
  bound : c.Bound
  two_le_data : 2 ≤ c.geometry.data
  subset_range : stored ⊆ Finset.range c.geometry.total
  keeps : ∀ i n, c.slotNode? i = some n → ∃ r, SizeRecord.ofSize b.size = .ok r ∧
    n.Keeps c.limit (Text.utf8 b.id.key) (entryOf c.geometry b r stored i) (i ∉ dead)

namespace Written

variable {b : Block} {stored dead : Finset ℕ} {c : Cluster}

theorem askSize (h : c.Written b stored dead) : (c.askSize b.id).2.Written b stored dead where
  bound := h.bound.called
  two_le_data := h.two_le_data
  subset_range := h.subset_range
  keeps i n' hn' := by
    rw [h.bound.slotNode?_askSize, Option.map_eq_some_iff] at hn'
    obtain ⟨n, hn, rfl⟩ := hn'
    obtain ⟨r, hr, hkeeps⟩ := h.keeps i n hn
    exact ⟨r, hr, hkeeps.getRecord _⟩

/-- The node of a slot that the geometry has. -/
theorem exists_slotNode? (h : c.Written b stored dead) {i : ℕ} (hi : i ∈ stored \ dead) :
    ∃ n, c.slotNode? i = some n := by
  have hlt := Finset.mem_range.1 (h.subset_range (Finset.sdiff_subset hi))
  exact Option.isSome_iff_exists.1 (h.bound.isSome_slotNode?.2 hlt)

/-! ## What the slots answer -/

theorem records_of_mem (h : c.Written b stored dead) {i : ℕ} (hi : i ∈ stored \ dead) :
    ∃ r, SizeRecord.ofSize b.size = .ok r ∧ (c.records b.id)[i]? = some (.ok r) := by
  obtain ⟨n, hn⟩ := h.exists_slotNode? hi
  obtain ⟨r, hr, hkeeps⟩ := h.keeps i n hn
  obtain ⟨hs, hd⟩ := Finset.mem_sdiff.1 hi
  refine ⟨r, hr, ?_⟩
  rw [h.bound.getElem?_records, hn, Option.map_some, hkeeps.outcome_getRecord hd, entryOf,
    if_pos hs]
  have hdecode : SizeRecord.decode r.encode = .ok r :=
    SizeRecord.decode_eq_ok_iff.2 ⟨(SizeRecord.ofSize_eq_ok_iff.1 hr).1, rfl⟩
  exact congrArg some hdecode

theorem records_of_not_mem (h : c.Written b stored dead) {i : ℕ} (hi : i ∉ stored \ dead)
    {a : Outcome SizeRecord} (ha : (c.records b.id)[i]? = some a) :
    ∃ e : Failure, ¬ e.isCanceled ∧ a = .error e := by
  rw [h.bound.getElem?_records, Option.map_eq_some_iff] at ha
  obtain ⟨n, hn, rfl⟩ := ha
  obtain ⟨r, -, hkeeps⟩ := h.keeps i n hn
  by_cases hd : i ∈ dead
  · obtain ⟨e, he, ho⟩ := hkeeps.outcome_of_dead (not_not.2 hd) .getRecord
      (Node.storedRecord b.id.key) fun b _ => b
    exact ⟨e, he, congrArg (Except.bind · SizeRecord.decode) ho⟩
  · have hs : i ∉ stored := fun hs => hi (Finset.mem_sdiff.2 ⟨hs, hd⟩)
    rw [hkeeps.outcome_getRecord hd, entryOf, if_neg hs]
    exact ⟨.keyUnknown b.id.key, by simp [Failure.isCanceled, Failure.category], rfl⟩

theorem askShards_of_mem (h : c.Written b stored dead) {i : ℕ} (hi : i ∈ stored \ dead) :
    ∃ s, (c.geometry.encode b.data)[i]? = some s ∧
      (c.askShards b.id.key none).1[i]? = some (.ok s) := by
  obtain ⟨n, hn⟩ := h.exists_slotNode? hi
  obtain ⟨r, -, hkeeps⟩ := h.keeps i n hn
  obtain ⟨hs, hd⟩ := Finset.mem_sdiff.1 hi
  have hlt := Finset.mem_range.1 (h.subset_range hs)
  rw [← Geometry.length_encode c.geometry b.data] at hlt
  refine ⟨_, List.getElem?_eq_getElem hlt, ?_⟩
  rw [h.bound.getElem?_askShards, hn, Option.map_some, hkeeps.outcome_get hd, entryOf, if_pos hs,
    List.getElem?_eq_getElem hlt]
  rfl

theorem askShards_of_not_mem (h : c.Written b stored dead) {i : ℕ} (hi : i ∉ stored \ dead)
    {a : Outcome Bytes} (ha : (c.askShards b.id.key none).1[i]? = some a) :
    ∃ e, a = .error e := by
  rw [h.bound.getElem?_askShards, Option.map_eq_some_iff] at ha
  obtain ⟨n, hn, rfl⟩ := ha
  obtain ⟨r, -, hkeeps⟩ := h.keeps i n hn
  by_cases hd : i ∈ dead
  · obtain ⟨e, -, ho⟩ := hkeeps.outcome_of_dead (not_not.2 hd) .get
      (Node.storedShard b.id.key) fun b _ => b
    exact ⟨e, ho⟩
  · have hs : i ∉ stored := fun hs => hi (Finset.mem_sdiff.2 ⟨hs, hd⟩)
    rw [hkeeps.outcome_get hd, entryOf, if_neg hs]
    exact ⟨.keyUnknown b.id.key, rfl⟩

theorem sdiff_subset_range (h : c.Written b stored dead) :
    stored \ dead ⊆ Finset.range (c.records b.id).length := by
  rw [h.bound.length_records]
  exact Finset.sdiff_subset.trans h.subset_range

/-- The slots that stored their shard and live answer alike, and the others fail. -/
theorem countP_records (h : c.Written b stored dead) {p : Outcome SizeRecord → Bool} {v : Bool}
    (hok : ∀ r, SizeRecord.ofSize b.size = .ok r → p (.ok r) = v)
    (herror : ∀ e : Failure, ¬ e.isCanceled → p (.error e) = false) :
    (c.records b.id).countP p = if v then (stored \ dead).card else 0 := by
  have hplace : ∀ i a, (c.records b.id)[i]? = some a →
      (p a = true ↔ v = true ∧ i ∈ stored \ dead) := by
    intro i a ha
    by_cases hi : i ∈ stored \ dead
    · obtain ⟨r, hr, hrec⟩ := h.records_of_mem hi
      obtain rfl : .ok r = a := Option.some.inj (hrec.symm.trans ha)
      rw [hok r hr]
      exact (and_iff_left hi).symm
    · obtain ⟨e, he, rfl⟩ := h.records_of_not_mem hi ha
      rw [herror e he]
      exact iff_of_false Bool.false_ne_true fun h => hi h.2
  cases v with
  | true =>
    refine countP_eq_card h.sdiff_subset_range fun i a ha => ?_
    rw [hplace i a ha]
    exact and_iff_right rfl
  | false =>
    refine List.countP_eq_zero.2 fun a ha hpa => ?_
    obtain ⟨i, hi⟩ := List.getElem?_of_mem ha
    exact Bool.false_ne_true ((hplace i a hi).1 hpa).1

theorem reports_eq (h : c.Written b stored dead) (n : ℕ) :
    c.reports b.id n = if n = b.size then (stored \ dead).card else 0 := by
  have hcount : c.reports b.id n =
      if decide (n = b.size) = true then (stored \ dead).card else 0 := by
    rw [reports]
    refine h.countP_records (fun r hr => ?_) fun _ _ => rfl
    rw [← (SizeRecord.ofSize_eq_ok_iff.1 hr).2]
    exact decide_eq_decide.2 eq_comm
  rw [hcount]
  simp only [decide_eq_true_eq]

theorem mem_present_screen_shards (h : c.Written b stored dead) {i : ℕ} {s : Bytes} :
    (i, s) ∈ (screen (c.geometry.shardLength b.size) (c.shards b.id)).present ↔
      i ∈ stored \ dead ∧ (c.geometry.encode b.data)[i]? = some s := by
  rw [mem_present_screen]
  by_cases hi : i ∈ stored \ dead
  · obtain ⟨s', hs', hget⟩ := h.askSize.askShards_of_mem hi
    have hlen : s'.length = c.geometry.shardLength b.size :=
      Geometry.length_of_mem_encode (List.mem_of_getElem? hs')
    have hshards : (c.shards b.id)[i]? = some (.ok s') := hget
    rw [hshards, show (c.geometry.encode b.data)[i]? = some s' from hs']
    constructor
    · rintro ⟨ho, -⟩
      obtain rfl := Except.ok.inj (Option.some.inj ho)
      exact ⟨hi, rfl⟩
    · rintro ⟨-, ho⟩
      obtain rfl := Option.some.inj ho
      exact ⟨rfl, hlen⟩
  · refine iff_of_false ?_ fun hs => hi hs.1
    rintro ⟨ha, -⟩
    obtain ⟨e, he⟩ := h.askSize.askShards_of_not_mem hi ha
    simp at he

theorem length_present_screen_shards (h : c.Written b stored dead) :
    (screen (c.geometry.shardLength b.size) (c.shards b.id)).present.length =
      (stored \ dead).card := by
  rw [Stripe.length_present]
  have hlen : (screen (c.geometry.shardLength b.size) (c.shards b.id)).length =
      c.geometry.total := by
    rw [length_screen, h.bound.length_shards]
  refine countP_eq_card ?_ fun i shard hs => ?_
  · rw [hlen]
    exact Finset.sdiff_subset.trans h.subset_range
  · constructor
    · intro hsome
      obtain ⟨s, rfl⟩ := Option.isSome_iff_exists.1 hsome
      exact (h.mem_present_screen_shards.1 (Stripe.mem_present.2 hs)).1
    · intro hi
      obtain ⟨s, hs', -⟩ := h.askSize.askShards_of_mem hi
      have := Stripe.mem_present.1 (h.mem_present_screen_shards.2 ⟨hi, hs'⟩)
      rw [hs] at this
      rw [Option.some.inj this]
      rfl

/-! ## What is read -/

/-- Enough slots that stored their shard and live give the block. -/
theorem read_of_enough (h : c.Written b stored dead) (hk : c.geometry.data ≤ (stored \ dead).card) :
    c.sizeOf b.id = .ok b.size ∧ c.blockOf b.id = .ok b := by
  have hreports : c.reports b.id b.size = (stored \ dead).card := by rw [h.reports_eq, if_pos rfl]
  have hlt : ∀ n ≠ b.size, c.reports b.id n < c.reports b.id b.size := fun n hn => by
    have := h.two_le_data
    rw [h.reports_eq n, if_neg hn, hreports]
    omega
  have hq : c.geometry.data ≤ c.reports b.id b.size := hreports ▸ hk
  refine ⟨sizeOf_of_majority h.two_le_data hq hlt, ?_⟩
  refine blockOf_of_good_answers h.bound.length_eq h.two_le_data hq hlt (fun _ => ?_)
    fun _ p hp => ?_
  · rw [h.length_present_screen_shards]
    exact hk
  · exact (h.mem_present_screen_shards.1 (List.mem_of_mem_take hp)).2

/-- Fewer slots give nothing. -/
theorem read_of_few (h : c.Written b stored dead) (hk : (stored \ dead).card < c.geometry.data) :
    ∃ e : Failure, e.Unread ∧ c.sizeOf b.id = .error e ∧ c.blockOf b.id = .error e := by
  have hok : (c.records b.id).countP Outcome.isOk = (stored \ dead).card :=
    h.countP_records (v := true) (fun _ _ => rfl) fun _ _ => rfl
  have hcanceled : (c.records b.id).countP Outcome.isCanceled = 0 :=
    h.countP_records (v := false) (fun _ _ => rfl) fun _ he => Bool.eq_false_iff.2 he
  have hsize : c.sizeOf b.id =
      .error (unavailable b.id.key c.geometry.data (c.records b.id)) := by
    rw [sizeOf, if_neg (Nat.not_lt.2 h.two_le_data)]
    exact concludeSize_of_few (by omega) (by omega)
  refine ⟨_, unread_unavailable .., hsize, ?_⟩
  rw [blockOf, hsize]
  rfl

end Written

/-! ## Writing -/

/-- The cluster does not hold the block. When it is written, exactly the slots in `stored` store
their shard; afterwards the slots in `dead` fail every call, and the others answer every call. -/
structure Scene (b : Block) (stored dead : Finset ℕ) (c : Cluster) : Prop where
  bound : c.Bound
  two_le_data : 2 ≤ c.geometry.data
  size_le : b.size ≤ SizeRecord.maxSize
  subset_range : stored ⊆ Finset.range c.geometry.total
  unlimited : ∀ i n, c.slotNode? i = some n → n.store.Unlimited
  lacks : ∀ i n, c.slotNode? i = some n → n.store.held (Text.utf8 b.id.key) = (none, none)
  stores : ∀ i n, c.slotNode? i = some n → i ∈ stored →
    (n.weather n.calls .put).Passes c.limit
  refuses : ∀ i n, c.slotNode? i = some n → i ∉ stored →
    (n.weather n.calls .put).Fails c.limit fun _ => True
  lives : ∀ i n, c.slotNode? i = some n → i ∉ dead → ∀ t > n.calls, ∀ m,
    (n.weather t m).Passes c.limit
  dies : ∀ i n, c.slotNode? i = some n → i ∈ dead → ∀ t > n.calls, ∀ m,
    (n.weather t m).Fails c.limit fun e => ¬ e.isCanceled

namespace Scene

variable {b : Block} {stored dead : Finset ℕ} {c : Cluster} {r : SizeRecord}

/-- What a slot makes of its shard. -/
theorem put_node (h : c.Scene b stored dead) {i : ℕ} {n : Node} (hn : c.slotNode? i = some n)
    (start : ℕ) :
    let shard := (c.geometry.encode b.data).getD i []
    let s := callNode ⟨"put", .never, c.limit, start⟩ i (Node.put b.id.key r.encode shard) n
    (s.1.outcome.isOk ↔ i ∈ stored) ∧
      s.2.Keeps c.limit (Text.utf8 b.id.key) (entryOf c.geometry b r stored i) (i ∉ dead) := by
  intro shard s
  have hi : i < c.geometry.total := by
    rw [← h.bound.isSome_slotNode?, hn]
    rfl
  have hshard : (c.geometry.encode b.data)[i]? = some shard :=
    c.geometry.getElem?_encode_eq_getD b.data hi
  have hpasses (ha : i ∉ dead) (t : ℕ) (ht : t ≥ n.calls + 1) (m : Method) :
      (n.weather t m).Passes c.limit := h.lives i n hn ha t ht m
  have hfails (ha : ¬ i ∉ dead) (t : ℕ) (ht : t ≥ n.calls + 1) (m : Method) :
      (n.weather t m).Fails c.limit fun e => ¬ e.isCanceled :=
    h.dies i n hn (not_not.1 ha) t ht m
  by_cases hs : i ∈ stored
  · obtain ⟨ho, hnode⟩ : s.1.outcome = (n.store.put b.id.key r.encode shard).1 ∧
        s.2 = Node.tick { n with store := (n.store.put b.id.key r.encode shard).2 } :=
      callNode_of_passes (h.stores i n hn hs)
    have hok := (h.unlimited i n hn).put b.id.key r.encode shard
    rcases Store.put_cases b.id.key r.encode shard n.store with ⟨e, he⟩ | ⟨st, hput, hheld, hu⟩
    · rw [he] at hok
      simp at hok
    · rw [ho, hnode, hput]
      refine ⟨iff_of_true rfl hs, hu.2 (h.unlimited i n hn), ?_, hpasses, hfails⟩
      rw [entryOf, if_pos hs, hshard]
      simp [Node.tick, hheld]
  · obtain ⟨⟨e, -, ho⟩, hnode⟩ : (∃ e, True ∧ s.1.outcome = .error e) ∧ s.2 = n.tick :=
      callNode_of_fails (fun _ _ => trivial) (h.refuses i n hn hs)
    rw [ho, hnode]
    refine ⟨iff_of_false Bool.false_ne_true hs, h.unlimited i n hn, ?_, hpasses, hfails⟩
    rw [entryOf, if_neg hs]
    exact h.lacks i n hn

/-- What is left after the block was written. -/
theorem written (h : c.Scene b stored dead) (hr : SizeRecord.ofSize b.size = .ok r) {c' : Cluster}
    (hc' : c'.Same (c.askPut b r).2) : c'.Written b stored dead where
  bound := hc'.bound h.bound.called
  two_le_data := by
    rw [hc'.geometry]
    exact h.two_le_data
  subset_range := by
    rw [hc'.geometry]
    exact h.subset_range
  keeps i n' hn' := by
    rw [hc'.slotNode?, askPut, ask, h.bound.slotNode?_called, Option.map_eq_some_iff] at hn'
    obtain ⟨n, hn, rfl⟩ := hn'
    rw [hc'.geometry, hc'.limit]
    exact ⟨r, hr, (h.put_node hn 0).2⟩

/-- The slots that stored their shard are as many as said so. -/
theorem countP_askPut (h : c.Scene b stored dead) (r : SizeRecord) :
    (c.askPut b r).1.countP Outcome.isOk = stored.card := by
  have hlen : (c.askPut b r).1.length = c.geometry.total := by
    simp [askPut, ask, h.bound.length_eq]
  refine countP_eq_card (hlen ▸ h.subset_range) fun i a ha => ?_
  rw [askPut, ask, List.getElem?_map, h.bound.getElem?_called, Option.map_map,
    Option.map_eq_some_iff] at ha
  obtain ⟨n, hn, rfl⟩ := ha
  exact (h.put_node hn 0).1

/-- A write that succeeds under a quorum was stored by as many slots as a read needs. -/
theorem put_never (h : c.Scene b stored dead) :
    Op.Triple (· = c) (Cluster.put .never b)
      (fun _ c' => (c'.geometry = c.geometry ∧ c'.Written b stored dead) ∧
        (c.policy = .quorum → c.geometry.data ≤ stored.card))
      (fun _ c' => c'.geometry = c.geometry ∧ c'.Written b stored dead) := by
  obtain ⟨r, hr⟩ : ∃ r, SizeRecord.ofSize b.size = .ok r := ⟨_, if_pos h.size_le⟩
  refine (Op.Triple.put_never hr c).conseq (fun _ h => h) (fun _ c' hc' => ?_) fun _ c' hc' => ?_
  · refine ⟨⟨hc'.1.geometry, h.written hr hc'.1⟩, fun hpolicy => ?_⟩
    have hw := hc'.2
    rw [hpolicy] at hw
    rw [← h.countP_askPut r]
    exact c.geometry.data_le_write.trans (concludeWrite_quorum_ok hw)
  · exact ⟨hc'.geometry, h.written hr hc'⟩

/-- **When a block that was written can be read.** Its size and the block are read if enough slots
stored their shard and live, and neither is if not, whatever the write itself reported. Hence a
write that succeeds under a quorum can be read at once, and a block that all slots stored is read
after the loss of as many slots as there are parity shards, but not of one more. -/
theorem availability_of_put (h : c.Scene b stored dead) :
    let written := (Cluster.put .never b).run c
    let size := ((Cluster.size .never b.id).run written.2.2).1
    let read := ((Cluster.get .never b.id).run written.2.2).1
    (c.geometry.data ≤ (stored \ dead).card → size = .ok b.size ∧ read = .ok b) ∧
    ((stored \ dead).card < c.geometry.data →
      ∃ e : Failure, e.Unread ∧ size = .error e ∧ read = .error e) ∧
    (c.policy = .quorum → written.1 = .ok () → dead = ∅ → read = .ok b) ∧
    (stored = Finset.range c.geometry.total → dead ⊆ stored →
      (dead.card = c.geometry.parity → read = .ok b) ∧
      (dead.card = c.geometry.parity + 1 → ∃ e : Failure, e.Unread ∧ read = .error e)) := by
  intro written size read
  obtain ⟨hg, hwritten⟩ : written.2.2.geometry = c.geometry ∧ written.2.2.Written b stored dead :=
    (h.put_never.imp_ok fun _ _ h => h.1).run_cluster rfl
  have hsize : size = written.2.2.sizeOf b.id := (Op.Triple.size_never b.id _).run_eq rfl
  have hread : read = written.2.2.blockOf b.id := (Op.Triple.get_never b.id _).run_eq rfl
  have henough (hk : c.geometry.data ≤ (stored \ dead).card) : size = .ok b.size ∧ read = .ok b := by
    rw [hsize, hread]
    exact hwritten.read_of_enough (hg ▸ hk)
  have hfew (hk : (stored \ dead).card < c.geometry.data) :
      ∃ e : Failure, e.Unread ∧ size = .error e ∧ read = .error e := by
    rw [hsize, hread]
    exact hwritten.read_of_few (hg ▸ hk)
  refine ⟨henough, hfew, fun hpolicy hok hdead => ?_, fun hall hdead => ?_⟩
  · have hcard := (h.put_never.run_ok rfl hok).2 hpolicy
    rw [hdead, Finset.sdiff_empty] at henough
    exact (henough hcard).2
  · have hcard : (stored \ dead).card = c.geometry.data + c.geometry.parity - dead.card := by
      rw [Finset.card_sdiff_of_subset hdead, hall, Finset.card_range]
      rfl
    refine ⟨fun hm => (henough (by omega)).2, fun hm => ?_⟩
    have := c.geometry.data_pos
    obtain ⟨e, he, -, hr⟩ := hfew (by omega)
    exact ⟨e, he, hr⟩

/-- Three empty slots, of which the last refuses every call but the first. -/
def dyingThird : Cluster where
  codec := .ofGeometry .twoAndOne 0
  policy := .quorum
  limit := some 1000
  slots := [⟨"", 0⟩, ⟨"", 1⟩, ⟨"", 2⟩]
  nodes := [.ofStore "" (.memory (.empty 0)), .ofStore "" (.memory (.empty 0)),
    ⟨"", .memory (.empty 0), fun t _ => ⟨0, if t = 0 then .pass else .refuse (.transport "")⟩, 0⟩]
  journal := []

theorem slotNode?_dyingThird {i : ℕ} {n : Node} (h : dyingThird.slotNode? i = some n) :
    n.store = .memory (.empty 0) ∧ n.calls = 0 ∧ i < 3 ∧
      ∀ t m, n.weather t m = ⟨0, if i < 2 ∨ t = 0 then .pass else .refuse (.transport "")⟩ := by
  match i with
  | 0 | 1 =>
    obtain rfl := Option.some.inj h
    exact ⟨rfl, rfl, by decide, fun _ _ => rfl⟩
  | 2 =>
    obtain rfl := Option.some.inj h
    refine ⟨rfl, rfl, by decide, fun t _ => ?_⟩
    change (⟨0, if t = 0 then .pass else .refuse (.transport "")⟩ : Disturbance) = _
    simp
  | i + 3 => simp [slotNode?, dyingThird] at h

/-- A block of three bytes survives the loss of one of three slots. -/
theorem availability_of_dyingThird :
    let b : Block := ⟨.blake3, [1, 2, 3]⟩
    dyingThird.Scene b {0, 1, 2} {2} ∧
      ((Cluster.get .never b.id).run ((Cluster.put .never b).run dyingThird).2.2).1 = .ok b := by
  intro b
  have hpass {d : Disturbance} (hd : d = ⟨0, .pass⟩) : d.Passes dyingThird.limit :=
    hd ▸ ⟨rfl, fun _ _ => Nat.zero_le _⟩
  have hscene : dyingThird.Scene b {0, 1, 2} {2} := by
    refine ⟨⟨rfl, by decide, by decide⟩, by decide, by decide, by decide, ?_, ?_, ?_, ?_, ?_, ?_⟩ <;>
      intro i n hn <;> obtain ⟨hstore, hcalls, hi, hweather⟩ := slotNode?_dyingThird hn
    · rw [hstore]
      exact rfl
    · rw [hstore]
      rfl
    · intro _
      refine hpass ?_
      rw [hweather, hcalls]
      simp
    · intro hnot
      refine absurd ?_ hnot
      simp only [Finset.mem_insert, Finset.mem_singleton]
      omega
    · intro hlives t _ m
      refine hpass ?_
      rw [Finset.mem_singleton] at hlives
      rw [hweather, if_pos (Or.inl (by omega))]
    · intro hdies t ht m
      rw [Finset.mem_singleton] at hdies
      refine Or.inr (Or.inr ⟨.transport "", by decide, ?_⟩)
      rw [hweather, if_neg (by omega)]
  exact ⟨hscene, ((availability_of_put hscene).1 (by decide)).2⟩

end Scene

end Cluster

end ErasureVault
