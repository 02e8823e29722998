/-
  Consistent clusters: every slot holds nothing but its own part of blocks that were written.

  * `Cluster.Consistent g slots blocks c`: the nodes are honest, and whatever the node of a slot
    holds under a key is the record and the slot's own shard of a block in `blocks` with that key.
    Calls that write such parts, or remove keys, keep a cluster so, however they end
    (`callAll_consistent`), and what is collected for a block are its own shards (`Stripe.Of`);
  * of a consistent cluster, no size is agreed on and no block is read but those of a block in
    `blocks`, and a read can only fail for want of answers (`size_consistent`, `get_consistent`).
-/
import ErasureVault.Proofs.Slotwise
import ErasureVault.Proofs.Write

namespace ErasureVault

open Function Interpolation Polynomial Quorum

variable {α : Type} {g : Geometry} {blocks : Set Block} {slot : ℕ}

/-! ## Stores -/

namespace Store

/-- Under every key, the store holds nothing, or the part of the slot of a block with that key. -/
def Consistent (g : Geometry) (blocks : Set Block) (slot : ℕ) (s : Store) : Prop :=
  ∀ k, s.held k = (none, none) ∨
    ∃ b ∈ blocks, ∃ r, SizeRecord.ofSize b.size = .ok r ∧ k = Text.utf8 b.id.key ∧
      s.held k = (some r.encode, (g.encode b.data)[slot]?)

namespace Consistent

variable {s s' : Store}

theorem congr (h : s.Consistent g blocks slot) (hs : s'.held = s.held) :
    s'.Consistent g blocks slot := by
  intro k
  rw [hs]
  exact h k

theorem put (h : s.Consistent g blocks slot) {b : Block} (hb : b ∈ blocks) {r : SizeRecord}
    (hr : SizeRecord.ofSize b.size = .ok r) {shard : Bytes}
    (hshard : (g.encode b.data)[slot]? = some shard) :
    (s.put b.id.key r.encode shard).2.Consistent g blocks slot := by
  rcases put_cases b.id.key r.encode shard s with ⟨e, he⟩ | ⟨s', hs', hheld, -⟩
  · rw [he]
    exact h
  · rw [hs']
    intro k
    rw [hheld]
    by_cases hk : k = Text.utf8 b.id.key
    · subst hk
      exact Or.inr ⟨b, hb, r, hr, rfl, by simp [hshard]⟩
    · rw [update_of_ne hk]
      exact h k

theorem removeKey (h : s.Consistent g blocks slot) (key : String) :
    (Node.removeKey key s).2.Consistent g blocks slot := by
  intro k
  rw [Node.held_removeKey]
  by_cases hk : k = Text.utf8 key
  · subst hk
    exact Or.inl (update_self ..)
  · rw [update_of_ne hk]
    exact h k

/-- A record that can be read is that of a block with its key. -/
theorem record (h : s.Consistent g blocks slot) {key : String} {bytes : Bytes} {r : SizeRecord}
    (hheld : (s.held (Text.utf8 key)).1 = some bytes) (hr : SizeRecord.decode bytes = .ok r) :
    ∃ b ∈ blocks, b.id.key = key ∧ b.size = r.size := by
  rcases h (Text.utf8 key) with hnone | ⟨b, hb, r', hr', hkey, hsome⟩
  · rw [hnone] at hheld
    simp at hheld
  · rw [hsome, Option.some.injEq] at hheld
    obtain ⟨hneg', hsize⟩ := SizeRecord.ofSize_eq_ok_iff.1 hr'
    have hdecode : SizeRecord.decode bytes = .ok r' :=
      SizeRecord.decode_eq_ok_iff.2 ⟨hneg', hheld⟩
    obtain rfl := Except.ok.inj (hdecode.symm.trans hr)
    exact ⟨b, hb, (Text.utf8_injective hkey).symm, hsize.symm⟩

theorem shard (h : s.Consistent g blocks slot) {key : String} {x : Bytes}
    (hheld : (s.held (Text.utf8 key)).2 = some x) :
    ∃ b ∈ blocks, b.id.key = key ∧ (g.encode b.data)[slot]? = some x := by
  rcases h (Text.utf8 key) with hnone | ⟨b, hb, r, -, hkey, hsome⟩
  · rw [hnone] at hheld
    simp at hheld
  · rw [hsome] at hheld
    exact ⟨b, hb, (Text.utf8_injective hkey).symm, hheld⟩

end Consistent

end Store

/-! ## Nodes and clusters -/

/-- The node is honest, and its store is consistent. -/
structure Node.Consistent (g : Geometry) (blocks : Set Block) (slot : ℕ) (n : Node) : Prop where
  honest : n.Honest
  store : n.store.Consistent g blocks slot

/-- A call whose work keeps the store consistent keeps the node so, however the call ends. -/
theorem Node.Consistent.callNode {n : Node} (h : n.Consistent g blocks slot) {m : Method}
    {work : Store → StoreResult α} {forge : Bytes → α → α}
    (hw : (work n.store).2.Consistent g blocks slot) (t : Terms) (i : ℕ) :
    (callNode t i (Node.call m work forge) n).2.Consistent g blocks slot where
  honest := h.honest.callNode t i m work forge
  store := by
    rcases (callNode_frame t i m work forge n).2.2 with hs | hs
    · rw [hs]
      exact h.store
    · rw [hs]
      exact hw

namespace Node.Consistent

variable {n : Node} {key : String} {t : Terms} {i : ℕ}

theorem after {k : ℕ} {n' : Node} (h : n.Consistent g blocks slot) (hn : n.After k n') :
    n'.Consistent g blocks slot :=
  ⟨hn.honest h.honest, h.store.congr hn.held⟩

/-- The size that a slot reports is that of a block with the key. -/
theorem of_getSize (h : n.Consistent g blocks slot) {r : SizeRecord}
    (hr : (ErasureVault.callNode t i (Node.getSize key) n).1.outcome = .ok r) :
    ∃ b ∈ blocks, b.id.key = key ∧ b.size = r.size := by
  obtain ⟨bytes, hbytes, hdecode⟩ := getSize_ok hr
  exact h.store.record (storedRecord_ok (h.honest.callNode_ok hbytes)) hdecode

/-- A slot that may be left out gives its own shard of a block with the key, or nothing. -/
theorem of_getUnless (h : n.Consistent g blocks slot) {left : Prop} [Decidable left] {x : Bytes}
    (hx : (ErasureVault.callNode t i (fun n =>
      if left then (⟨0, .value []⟩, n) else n.get key) n).1.outcome = .ok x) :
    x = [] ∨ ∃ b ∈ blocks, b.id.key = key ∧ (g.encode b.data)[slot]? = some x := by
  by_cases hleft : left
  · exact Or.inl (eq_nil_of_left hleft hx)
  · simp only [hleft, if_false] at hx
    exact Or.inr (h.store.shard (storedShard_ok (h.honest.callNode_ok hx)))

end Node.Consistent

/-- The slots hold nothing but their own parts of blocks in `blocks`. -/
structure Cluster.Consistent (g : Geometry) (slots : List Binding) (blocks : Set Block)
    (c : Cluster) : Prop where
  geometry : c.geometry = g
  slots : c.slots = slots
  bound : c.Bound
  nodes : ∀ i n, c.slotNode? i = some n → n.Consistent g blocks i

variable {slots : List Binding}

namespace Cluster

theorem Consistent.each {c : Cluster} (h : c.Consistent g slots blocks) :
    c.Each ⟨g, slots, c.limit⟩ fun i n => n.Consistent g blocks i :=
  ⟨by rw [layout, h.geometry, h.slots], h.bound, h.nodes⟩

theorem Each.consistent {l : Layout} {c : Cluster}
    (h : c.Each l fun i n => n.Consistent l.geometry blocks i) :
    c.Consistent l.geometry l.slots blocks :=
  ⟨h.geometry, h.slots, h.bound, h.nodes⟩

theorem Consistent.journal {c : Cluster} (h : c.Consistent g slots blocks) (j : Journal) :
    Cluster.Consistent g slots blocks { c with journal := j } :=
  (h.each.journal j).consistent

theorem Consistent.codec {c : Cluster} (h : c.Consistent g slots blocks) {codec : Codec}
    (hg : codec.geometry = g) : Cluster.Consistent g slots blocks { c with codec } :=
  (h.each.codec hg).consistent

end Cluster

/-! ## Calls -/

namespace Op.Triple

variable {P : Cluster → Prop} {Q : α → Cluster → Prop} {E : Failure → Cluster → Prop} {x : Op α}

/-- What holds slot by slot, whatever the limit of the calls. -/
theorem of_consistent
    (h : ∀ limit, Triple (Cluster.Each ⟨g, slots, limit⟩ fun i n => n.Consistent g blocks i) x Q E) :
    Triple (Cluster.Consistent g slots blocks) x Q E :=
  of_each fun c hc => (h c.limit).each hc.each

theorem callAll_consistent {label : String} {token : Token} {call : ℕ → Node → Attempt α × Node}
    (hcall : ∀ t i n, i < g.total → n.Consistent g blocks i →
      (callNode t i (call i) n).2.Consistent g blocks i) :
    Triple (Cluster.Consistent g slots blocks) (Op.callAll label token call)
      (fun _ => Cluster.Consistent g slots blocks) E :=
  of_consistent fun _ => (callAll_each (J := fun i _ n => n.Consistent g blocks i)
    fun _ i n hi hn => hcall _ i n hi hn).imp_ok fun _ _ h =>
      (h.2.mono fun _ _ ⟨_, _, hn⟩ => hn).consistent

end Op.Triple

/-! ## Stripes of one block -/

/-- The shards that the stripe has are shards of the block, and not empty. -/
structure Stripe.Of (g : Geometry) (b : Block) (s : Stripe) : Prop where
  length_eq : s.length = g.total
  shard : ∀ p ∈ s.present, (g.encode b.data)[p.1]? = some p.2
  ne_nil : ∀ p ∈ s.present, p.2 ≠ []

namespace Stripe.Of

variable {b : Block} {s s' : Stripe} {extent : Geometry.Extent}

theorem dropEmpty_eq (h : s.Of g b) : s.dropEmpty = s :=
  dropEmpty_of_ne_nil h.ne_nil

theorem on_curve (h : s.Of g b) : s.On (g.curve b.data) (g.shardLength b.size) := by
  intro i x hx
  have hi : i < g.total := by
    rw [← h.length_eq]
    exact (List.getElem?_eq_some_iff.1 hx).1
  have := h.shard (i, x) (mem_present.2 hx)
  rw [Geometry.getElem?_encode g b.data hi] at this
  exact (Option.some.inj this).symm

theorem replicate_none : Stripe.Of g b (List.replicate g.total none) where
  length_eq := List.length_replicate
  shard := by simp [present_replicate_none]
  ne_nil := by simp [present_replicate_none]

/-- Of answers that are shards of the block or empty, only shards of the block pass the screen. -/
theorem screen {n : ℕ} {answers : List (Outcome Bytes)} (hn : n ≠ 0)
    (hlen : answers.length = g.total)
    (hshard : ∀ (i : ℕ) (x : Bytes), answers[i]? = some (.ok x) →
      x = [] ∨ (g.encode b.data)[i]? = some x) :
    Stripe.Of g b (screen n answers) where
  length_eq := (length_screen n answers).trans hlen
  shard p hp := by
    obtain ⟨ha, hl⟩ := mem_present_screen.1 hp
    refine (hshard p.1 p.2 ha).resolve_left fun hnil => hn ?_
    rw [← hl, hnil, List.length_nil]
  ne_nil p hp hnil := by
    refine hn ?_
    rw [← (mem_present_screen.1 hp).2, hnil, List.length_nil]

/-- What is collected from such answers is a stripe of the block. -/
theorem of_collected (h : Collected g b.size (fun i a =>
    ∀ x, a = .ok x → x = [] ∨ (g.encode b.data)[i]? = some x) s) : s.Of g b := by
  obtain ⟨-, rfl⟩ | ⟨h0, answers, hlen, hshard, rfl⟩ := h
  · exact .replicate_none
  · exact .screen h0 hlen fun i x hx => hshard i _ hx x rfl

/-- An empty block has only empty shards. -/
theorem present_of_empty (h : s.Of g b) (h0 : b.size = 0) : s.present = [] := by
  refine List.eq_nil_iff_forall_not_mem.2 fun p hp => h.ne_nil p hp ?_
  have hlen := Geometry.length_of_mem_encode (List.mem_of_getElem? (h.shard p hp))
  exact List.length_eq_zero_iff.1 (hlen.trans (Geometry.shardLength_eq_zero_iff.2 h0))

theorem restored_of_empty (h : s.Of g b) (h0 : b.size = 0) (extent : Geometry.Extent) :
    g.restored extent b.size s = .ok s := by
  rw [Geometry.restored_of_enough fun hpos => absurd h0 hpos.ne',
    Geometry.rebuild_of_none extent h.length_eq (by rw [h.dropEmpty_eq, h.present_of_empty h0]),
    h.dropEmpty_eq]
  rfl

theorem restored_of_enough (h : s.Of g b) (hp : g.data ≤ s.present.length)
    (extent : Geometry.Extent) :
    g.restored extent b.size s = .ok (s.fill fun i => if extent.Covers g i then
      some (shardOn (g.curve b.data) (g.shardLength b.size) (Gf256.ofNat i)) else none) := by
  rw [Geometry.restored_of_enough fun _ => hp, Geometry.rebuild_on extent h.length_eq
    (by rw [h.dropEmpty_eq]; exact h.on_curve) (g.degree_curve b.data) (by rwa [h.dropEmpty_eq]),
    h.dropEmpty_eq]
  rfl

/-- Every slot of the extent has its shard in what is rebuilt. -/
theorem getElem?_fill (h : s.Of g b) {i : ℕ} (hi : i < g.total) (hcov : extent.Covers g i) :
    (s.fill fun i => if extent.Covers g i then
      some (shardOn (g.curve b.data) (g.shardLength b.size) (Gf256.ofNat i)) else none)[i]? =
      (g.encode b.data)[i]?.map some := by
  rw [Stripe.getElem?_fill, Geometry.getElem?_encode g b.data hi]
  cases hs : s[i]? with
  | none =>
    have := List.getElem?_eq_none_iff.1 hs
    rw [h.length_eq] at this
    omega
  | some shard =>
    cases shard with
    | none => simp [hcov, Block.size]
    | some x => exact congrArg (some ∘ some) (h.on_curve i x hs)

/-- A stripe of a block is not rebuilt only if too few shards are left. -/
theorem restored_error (h : s.Of g b) {e : Failure}
    (he : g.restored extent b.size s = .error e) :
    ∃ available, e = .shardsMissing available g.data := by
  by_cases hp : g.data ≤ s.present.length
  · rw [h.restored_of_enough hp] at he
    simp at he
  · rcases Nat.eq_zero_or_pos b.size with h0 | hpos
    · rw [h.restored_of_empty h0] at he
      simp at he
    · rw [Stripe.length_present, Nat.not_le] at hp
      rw [Geometry.restored, if_pos ⟨hpos, hp⟩] at he
      exact ⟨_, (Except.error.inj he).symm⟩

/-- **What is rebuilt of a stripe of a block is the block**, and the shards of the extent are
those of the block. -/
theorem restored_ok (h : s.Of g b) (hs' : g.restored extent b.size s = .ok s') :
    g.payload b.size s' = b.data ∧
      ∀ i < g.total, extent.Covers g i →
        ∃ shard, shardOf i b.size s' = .ok shard ∧ (g.encode b.data)[i]? = some shard := by
  by_cases hp : g.data ≤ s.present.length
  · rw [h.restored_of_enough hp] at hs'
    obtain rfl := Except.ok.inj hs'
    refine ⟨Geometry.payload_of_data fun i hi => h.getElem?_fill ?_ ?_, fun i hi hcov => ?_⟩
    · have := g.data_lt_total
      omega
    · cases extent
      · exact hi
      · exact trivial
    · rw [shardOf, h.getElem?_fill hi hcov, Geometry.getElem?_encode g b.data hi]
      exact ⟨_, rfl, rfl⟩
  · rcases Nat.eq_zero_or_pos b.size with h0 | hpos
    · rw [h.restored_of_empty h0] at hs'
      obtain rfl := Except.ok.inj hs'
      have hdata : b.data = [] := List.length_eq_zero_iff.1 h0
      refine ⟨by rw [Geometry.payload, h0, List.take_zero, hdata], fun i hi _ => ⟨[], ?_, ?_⟩⟩
      · have hnone : s[i]?.join = none := by
          refine Option.eq_none_iff_forall_ne_some.2 fun x hx => ?_
          have hmem := mem_present.2 (Option.join_eq_some_iff.1 hx)
          rw [h.present_of_empty h0] at hmem
          simp at hmem
        rw [shardOf, hnone]
        exact if_pos h0
      · rw [Geometry.getElem?_encode g b.data hi]
        refine congrArg some (List.length_eq_zero_iff.1 ?_)
        rw [length_shardOn]
        exact Geometry.shardLength_eq_zero_iff.2 h0
    · rw [Stripe.length_present, Nat.not_le] at hp
      rw [Geometry.restored, if_pos ⟨hpos, hp⟩] at hs'
      simp at hs'

end Stripe.Of

/-! ## Reading -/

/-- The failures of a read that finds too few answers, or whose caller gives up. -/
def Failure.Unanswered (e : Failure) : Prop :=
  e.isCanceled ∨ e.Unread ∨ ∃ available required, e = .shardsMissing available required

namespace Op.Triple

variable {token : Token}

/-- Only the size of a block with the id is agreed on. -/
theorem agreedSize_consistent (id : Digest) :
    Triple (Cluster.Consistent g slots blocks) (Cluster.agreedSize token id)
      (fun n c => (∃ b ∈ blocks, b.id = id ∧ b.size = n) ∧ c.Consistent g slots blocks)
      (fun e c => (e.isCanceled ∨ e.Unread) ∧ c.Consistent g slots blocks) := by
  refine of_consistent fun limit => (agreedSize_each (R := fun _ a => ∀ r, a = .ok r →
    ∃ b ∈ blocks, b.id.key = id.key ∧ b.size = r.size) fun start i n _ hn =>
      ⟨hn.after (Node.after_getSize _ i id.key n), fun _ hr => hn.of_getSize hr⟩).conseq
    (fun _ hc => hc) (fun n c h => ⟨?_, h.2.consistent⟩) fun e c h => ?_
  · obtain ⟨i, r, hr, rfl⟩ := h.1.exists_record
    obtain ⟨b, hb, hkey, hsize⟩ := hr r rfl
    exact ⟨b, hb, Digest.key_injective hkey, hsize⟩
  · rcases h with ⟨⟨rfl, -⟩ | ⟨-, rfl⟩, hc⟩ | ⟨⟨canceled, records, -, -, -, h⟩, hc⟩
    · exact ⟨Or.inl rfl, hc.consistent⟩
    · exact ⟨Or.inr (Or.inl ⟨_, _, _, rfl⟩), hc.consistent⟩
    · exact ⟨concludeSize_error h, hc.consistent⟩

variable (hids : ∀ b ∈ blocks, ∀ b' ∈ blocks, b.id = b'.id → b = b')

include hids in
/-- Only shards of the block with the key are collected. -/
theorem collect_consistent {b : Block} (hb : b ∈ blocks) (skip : Option ℕ) :
    Triple (Cluster.Consistent g slots blocks) (Cluster.collect token b.id.key b.size skip)
      (fun s c => s.Of g b ∧ c.Consistent g slots blocks)
      (fun e c => e.isCanceled ∧ c.Consistent g slots blocks) := by
  refine of_consistent fun limit => (collect_each (R := fun i a => ∀ x, a = .ok x →
    x = [] ∨ (g.encode b.data)[i]? = some x) fun start i n _ hn =>
      ⟨hn.after (Node.after_getUnless _ i b.id.key _ n), fun x hx => ?_⟩).conseq
    (fun _ hc => hc) (fun s c h => ⟨.of_collected h.1, ?_⟩) fun e c h => ⟨?_, h.2.consistent⟩
  · refine (hn.of_getUnless hx).imp_right ?_
    rintro ⟨b', hb', hkey, hx⟩
    exact hids b' hb' b hb (Digest.key_injective hkey) ▸ hx
  · have hc := h.2
    rw [ite_self] at hc
    exact hc.consistent
  · obtain ⟨⟨rfl, -⟩, -⟩ := h
    rfl

theorem restore_consistent (extent : Geometry.Extent) (size : ℕ) (s : Stripe) :
    Triple (Cluster.Consistent g slots blocks) (Cluster.restore extent size s)
      (fun s' c => g.restored extent size s = .ok s' ∧ c.Consistent g slots blocks)
      (fun e c => g.restored extent size s = .error e ∧ c.Consistent g slots blocks) :=
  restore (fun _ _ hc hg => hc.codec hg) (fun _ hc => hc.geometry) extent size s

/-- Only the size of a block that was written is told. -/
theorem size_consistent (id : Digest) :
    Triple (Cluster.Consistent g slots blocks) (Cluster.size token id)
      (fun n c => (∃ b ∈ blocks, b.id = id ∧ b.size = n) ∧ c.Consistent g slots blocks)
      (fun e c => (e.isCanceled ∨ e.Unread) ∧ c.Consistent g slots blocks) :=
  timed (agreedSize_consistent id) (fun _ _ j h => ⟨h.1, h.2.journal j⟩)
    fun _ _ j h => ⟨h.1, h.2.journal j⟩

include hids in
/-- **Only a block that was written is read**, and a read fails only for want of answers. -/
theorem get_consistent (id : Digest) :
    Triple (Cluster.Consistent g slots blocks) (Cluster.get token id)
      (fun b c => (b ∈ blocks ∧ b.id = id) ∧ c.Consistent g slots blocks)
      (fun e c => e.Unanswered ∧ c.Consistent g slots blocks) := by
  unfold Cluster.get
  refine timed ?_ (fun _ _ j h => ⟨h.1, h.2.journal j⟩) fun _ _ j h => ⟨h.1, h.2.journal j⟩
  refine bind ((agreedSize_consistent id).imp_error fun _ _ h => ⟨h.1.imp_right Or.inl, h.2⟩)
    fun size => of_each ?_
  rintro c₀ ⟨⟨b, hb, rfl, rfl⟩, hc₀⟩
  refine bind (((collect_consistent hids hb none).each hc₀).imp_error fun _ _ h =>
    ⟨Or.inl h.1, h.2⟩) fun s => of_each ?_
  rintro c₁ ⟨hs, hc₁⟩
  refine bind (((restore_consistent .data b.size s).each hc₁).imp_error fun e _ h => ?_)
    fun s' => ?_
  · obtain ⟨available, rfl⟩ := hs.restored_error h.1
    exact ⟨Or.inr (Or.inr ⟨_, _, rfl⟩), h.2⟩
  refine cluster.bind fun c₂ => of_each ?_
  rintro _ ⟨rfl, hs', hc₂⟩
  have hparts : Block.ofParts b.id (c₂.geometry.payload b.size s') = .ok b := by
    rw [hc₂.geometry, (hs.restored_ok hs').1]
    exact Block.ofParts_eq_ok_iff.2 ⟨rfl, rfl⟩
  rw [hparts]
  refine ofOutcome (fun b' c hc h => ?_) fun e c _ h => ?_
  · rw [← Except.ok.inj h, hc]
    exact ⟨⟨hb, rfl⟩, hc₂⟩
  · simp at h

/-! ## Writing and removing -/

theorem put_consistent {b : Block} (hb : b ∈ blocks) :
    Preserves (Cluster.Consistent g slots blocks) (Cluster.put token b) := by
  unfold Cluster.put
  refine Preserves.timed ?_ fun _ j h => h.journal j
  refine bind (ofOutcome (Q := fun r c => SizeRecord.ofSize b.size = .ok r ∧
    c.Consistent g slots blocks) (fun r c hc h => ⟨h, hc⟩) fun e c hc _ => hc) fun r => of_each ?_
  rintro c₀ ⟨hr, hc₀⟩
  refine cluster.bind fun c₁ => of_each ?_
  rintro _ ⟨rfl, rfl⟩
  refine bind (modifyCluster (Q := fun _ => Cluster.Consistent g slots blocks) ?_) fun _ => ?_
  · rintro _ rfl
    exact hc₀.codec hc₀.geometry
  refine bind (callAll_consistent fun t i n hi hn => ?_) fun _ => ?_
  · have hg : c₁.codec.geometry = g := hc₀.geometry
    refine hn.callNode (hn.store.put hb hr ?_) t i
    rw [hg]
    exact g.getElem?_encode_eq_getD b.data hi
  · refine (isCanceled token).bind fun canceled => ?_
    exact ofOutcome (fun _ c hc _ => hc.2) fun _ c hc _ => hc.2

theorem delete_consistent (id : Digest) :
    Preserves (Cluster.Consistent g slots blocks) (Cluster.delete token id) := by
  unfold Cluster.delete
  refine Preserves.timed ?_ fun _ j h => h.journal j
  refine bind (callAll_consistent fun t i n _ hn =>
    hn.callNode (hn.store.removeKey id.key) t i) fun _ => ?_
  refine (isCanceled token).bind fun canceled => ?_
  exact ofOutcome (fun _ c hc _ => hc.2) fun _ c hc _ => hc.2

end Op.Triple

end ErasureVault
