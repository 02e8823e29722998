/-
  What a write promises to those who read.

  * A write that succeeds under a quorum was stored by enough slots (`put_stored`). If no more parity
    shards than data shards are kept, the other slots are too few to say that the block was never
    written: as long as no slot loses its shard, the block is read or said to be unavailable,
    whichever slots fail (`readable_of_put`);
  * with more parity shards that is not so: the slots that never got their shard can be enough to
    say so (`unknown_of_farSlots`).
-/
import ErasureVault.Proofs.Answers
import ErasureVault.Proofs.Tolerance
import ErasureVault.Proofs.Write

namespace ErasureVault

open Quorum

variable {b : Block}

/-! ## Writing -/

/-- A slot that says so has stored its part. -/
theorem Node.holdsPart_of_put {g : Geometry} {n : Node} {t : Terms} {slot : ℕ}
    (hslot : slot < g.total) {s : Settled Unit × Node} (hs : s = callNode t slot
      (Node.put b.id.key b.record.encode ((g.encode b.data).getD slot [])) n)
    (hok : s.1.outcome.isOk) : s.2.HoldsPart g b slot := by
  subst hs
  cases ho : (callNode t slot
      (Node.put b.id.key b.record.encode ((g.encode b.data).getD slot [])) n).1.outcome with
  | error e =>
    rw [ho] at hok
    simp [Outcome.isOk] at hok
  | ok u =>
    obtain ⟨hvalue, hafter⟩ := callNode_ok ho
    obtain ⟨u', hu', -, hnode⟩ := Node.call_value hvalue
    rw [Node.HoldsPart, hafter, Node.put, hnode]
    rcases Store.put_cases b.id.key b.record.encode ((g.encode b.data).getD slot []) n.store with
      ⟨e, he⟩ | ⟨st, hput, hheld, -⟩
    · rw [he] at hu'
      simp at hu'
    · rw [hput]
      change st.held _ = _
      rw [hheld, Function.update_self, ← g.getElem?_encode_eq_getD b.data hslot]
      rfl

namespace Op.Triple

/-- **A write that succeeds under a quorum is held by a quorum.** -/
theorem put_stored {c : Cluster} (hc : c.Bound) (hpolicy : c.policy = .quorum) (token : Token) :
    Triple (· = c) (Cluster.put token b)
      (fun _ c' => b.Fits ∧ ∃ stored ⊆ Finset.range c.geometry.total,
        c.thresholds.write ≤ stored.card ∧
        c'.Each c.layout fun i n => i ∈ stored → n.HoldsPart c.geometry b i)
      fun _ _ => True := by
  unfold Cluster.put
  refine timed ?_ (fun _ c' j h => ?_) fun _ _ _ _ => trivial
  · refine bind (ofOutcome (Q := fun r c' => (b.Fits ∧ r = b.record) ∧ c' = c)
      (fun r c' hc' h => ⟨Block.ofSize_eq_ok_iff.1 h, hc'⟩) fun _ _ _ _ => trivial)
      fun r => of_each ?_
    rintro _ ⟨⟨hb, rfl⟩, rfl⟩
    refine cluster.bind fun c₀ => of_each ?_
    rintro _ ⟨rfl, rfl⟩
    have hstart : c₀.Each c₀.layout fun _ _ => True := hc.each.mono fun _ _ _ => trivial
    refine bind (modifyCluster (Q := fun _ => Cluster.Each c₀.layout fun _ _ => True) ?_) fun _ => ?_
    · rintro _ rfl
      exact hstart.codec rfl
    refine bind (callAll_each (J := fun i a n => a.isOk → n.HoldsPart c₀.geometry b i)
      fun start i n hi _ => Node.holdsPart_of_put hi rfl) fun outcomes => ?_
    refine (isCanceled token).bind fun canceled => ?_
    refine ofOutcome (fun u c' h hok => ?_) fun _ _ _ _ => trivial
    obtain ⟨-, hlen, hc'⟩ := h
    rw [hpolicy] at hok
    have hq := concludeWrite_quorum_ok hok
    rw [countP_eq_card_filter] at hq
    refine ⟨hb, _, ?_, hq, hc'.mono fun i n h hi => ?_⟩
    · rw [hlen]
      exact Finset.filter_subset ..
    · obtain ⟨a, ha, hold⟩ := h
      rw [Finset.mem_filter, ha] at hi
      exact hold hi.2
  · obtain ⟨hb, stored, hrange, hq, hc'⟩ := h
    exact ⟨hb, stored, hrange, hq, hc'.journal j⟩

end Op.Triple

/-! ## Reading -/

/-- A stripe that gives no block does not say that there is none. -/
theorem Geometry.not_isMissing_of_decoded {g : Geometry} {id : Digest} {size : ℕ} {s : Stripe}
    {e : Failure} (h : g.decoded id size s = .error e) : ¬ e.isMissing := by
  have hexamine {s : Stripe} {e : Failure} (h : g.examine s = .error e) : ¬ e.isMissing := by
    rw [examine] at h
    simp only at h
    split_ifs at h <;> rw [← Except.error.inj h] <;> exact Bool.false_ne_true
  have hrestored {e : Failure} (h : g.restored .data size s = .error e) : ¬ e.isMissing := by
    rw [restored] at h
    split at h
    · rw [← Except.error.inj h]
      exact Bool.false_ne_true
    · rw [rebuild] at h
      split at h
      · obtain rfl := Except.error.inj h
        exact Bool.false_ne_true
      · simp only at h
        split at h
        · obtain rfl := Except.error.inj h
          exact hexamine ‹_›
        · simp [Except.map] at h
        · simp [Except.map] at h
  rw [decoded] at h
  cases hs : g.restored .data size s with
  | error e' =>
    rw [hs] at h
    exact Except.error.inj h ▸ hrestored hs
  | ok s' =>
    rw [hs] at h
    change Block.ofParts id (g.payload size s') = .error e at h
    rw [Block.ofParts] at h
    split at h
    · simp at h
    · rw [← Except.error.inj h]
      exact Bool.false_ne_true

/-- The cluster some time after it was `before`: no slot has lost its part of the block. The slots in
`dead` fail every call, without saying that a key is not there, and the others answer. -/
structure Cluster.Later (b : Block) (dead : Set ℕ) (c before : Cluster) : Prop where
  bound : c.Bound
  geometry : c.geometry = before.geometry
  keeps : ∀ i n n', before.slotNode? i = some n → c.slotNode? i = some n' →
    n.HoldsPart before.geometry b i → n'.HoldsPart c.geometry b i
  lives : ∀ i n, c.slotNode? i = some n → i ∉ dead → ∀ t ≥ n.calls, ∀ m,
    (n.weather t m).Passes c.limit
  dies : ∀ i n, c.slotNode? i = some n → i ∈ dead → ∀ t ≥ n.calls, ∀ m,
    (n.weather t m).Fails c.limit fun e => ¬ e.isMissing

namespace Cluster.Later

variable {dead : Set ℕ} {before c : Cluster}

/-- A slot that holds its part does not say that it is not there. -/
theorem not_isMissing (h : c.Later b dead before) (hb : b.Fits) {i : ℕ} {n : Node}
    (hn : c.slotNode? i = some n) (hpart : n.HoldsPart c.geometry b i) {a : Outcome SizeRecord}
    (ha : (c.records b.id)[i]? = some a) : ¬ a.isMissing := by
  rw [h.bound.getElem?_records, hn, Option.map_some, Option.some.injEq] at ha
  subst ha
  by_cases hdead : i ∈ dead
  · obtain ⟨e, he, ho⟩ : ∃ e : Failure, ¬ e.isMissing ∧
        (callNode c.sizeTerms i (Node.getRecord b.id.key) n).1.outcome = .error e :=
      (callNode_of_fails (fun e he => by simp [Failure.isMissing, he])
        (h.dies i n hn hdead _ (Nat.le_refl _) .getRecord)).1
    rw [ho]
    exact he
  · have htold := hpart.told hb (h.lives i n hn hdead _ (Nat.le_refl _) .getRecord) "get_meta" 0
    rw [← Node.outcome_getSize, htold]
    exact Bool.false_ne_true

/-- Too few slots are left to say that the block was never written. -/
theorem sizeOf_ne_blockUnknown (h : c.Later b dead before) (hb : b.Fits) {stored : Finset ℕ}
    (hrange : stored ⊆ Finset.range c.geometry.total)
    (hstored : ∀ i ∈ stored, ∀ n, c.slotNode? i = some n → n.HoldsPart c.geometry b i)
    (hq : c.geometry.total < c.geometry.data + stored.card) (key : String) :
    c.sizeOf b.id ≠ .error (.blockUnknown key) := by
  have hcard : stored.card ≤ (c.records b.id).countP fun a => ¬ a.isMissing := by
    refine card_le_countP fun i hi => ?_
    have hlt := Finset.mem_range.1 (hrange hi)
    obtain ⟨n, hn⟩ := h.bound.exists_slotNode? hlt
    rw [← h.bound.length_records] at hlt
    refine ⟨_, List.getElem?_eq_getElem hlt, ?_⟩
    simpa using h.not_isMissing hb hn (hstored i hi n hn) (List.getElem?_eq_getElem hlt)
  have hmissing : (c.records b.id).countP Outcome.isMissing < c.geometry.data := by
    have := List.length_eq_countP_add_countP Outcome.isMissing (l := c.records b.id)
    rw [h.bound.length_records] at this
    omega
  intro hsize
  rw [sizeOf] at hsize
  split at hsize
  · simp at hsize
  rcases Nat.lt_or_ge ((c.records b.id).countP Outcome.isOk) c.geometry.data with hfew | henough
  · obtain ⟨e, he, hr⟩ := concludeSize_few_cases hfew false b.id.key
    obtain rfl := Except.error.inj (hr.symm.trans hsize)
    rcases he with he | he
    · simp [Failure.isCanceled, Failure.category] at he
    · rw [unavailable, if_neg (Nat.not_le.2 hmissing)] at he
      simp at he
  · rcases concludeSize_enough_cases henough false b.id.key with ⟨r, -, hr⟩ | ⟨e, he, hr⟩
    · simp [hr] at hsize
    · obtain rfl := Except.error.inj (hr.symm.trans hsize)
      simp [Failure.isCanceled, Failure.category] at he

theorem blockOf_ne_blockUnknown (h : ∀ key, c.sizeOf b.id ≠ .error (.blockUnknown key))
    (key : String) : c.blockOf b.id ≠ .error (.blockUnknown key) := by
  intro hblock
  rw [blockOf] at hblock
  cases hsize : c.sizeOf b.id with
  | error e =>
    rw [hsize] at hblock
    exact h key (hsize.trans (congrArg _ (Except.error.inj hblock)))
  | ok n =>
    rw [hsize] at hblock
    exact Geometry.not_isMissing_of_decoded hblock rfl

/-! ### Slots that hold nothing else -/

variable {i k : ℕ} {n : Node}

/-- A slot passes every call, or fails every call. -/
theorem weather (h : c.Later b dead before) (hn : c.Since k i n) (m : Method) :
    (i ∉ dead → (n.weather n.calls m).Passes c.limit) ∧
      (i ∈ dead → (n.weather n.calls m).Fails c.limit fun e => ¬ e.isMissing) := by
  obtain ⟨n₀, hn₀, hafter⟩ := hn
  rw [hafter.weather]
  have hcalls : n.calls ≥ n₀.calls := hafter.calls ▸ Nat.le_add_right ..
  exact ⟨fun hi => h.lives i n₀ hn₀ hi _ hcalls m, fun hi => h.dies i n₀ hn₀ hi _ hcalls m⟩

/-- What a slot gives is what it holds. -/
theorem eq_ok_of_callNode {α : Type} (h : c.Later b dead before) (hn : c.Since k i n) (m : Method)
    (work : Store → StoreResult α) (forge : Bytes → α → α) {label : String} {start : ℕ} {a : α}
    (ha : (callNode ⟨label, .never, c.limit, start⟩ i (Node.call m work forge) n).1.outcome = .ok a) :
    i ∉ dead ∧ (work n.store).1 = .ok a := by
  obtain ⟨hlives, hdies⟩ := h.weather hn m
  by_cases hi : i ∈ dead
  · obtain ⟨e, -, he⟩ : ∃ e : Failure, ¬ e.isMissing ∧
        (callNode ⟨label, .never, c.limit, start⟩ i (Node.call m work forge) n).1.outcome = .error e :=
      (callNode_of_fails (fun e he => by simp [Failure.isMissing, he]) (hdies hi)).1
    rw [he] at ha
    simp at ha
  · exact ⟨hi, (callNode_of_passes (hlives hi)).1.symm.trans ha⟩

section
variable (hnothing : ∀ i n, c.slotNode? i = some n → n.HoldsPart c.geometry b i ∨
  n.store.held (Text.utf8 b.id.key) = (none, none))

include hnothing in
theorem holdsPart_of_record (h : c.Later b dead before) (hn : c.Since k i n) {label : String}
    {start : ℕ} {r : SizeRecord} (hr : (callNode ⟨label, .never, c.limit, start⟩ i
      (Node.getSize b.id.key) n).1.outcome = .ok r) : i ∉ dead ∧ n.HoldsPart c.geometry b i := by
  obtain ⟨bytes, hbytes, -⟩ := Node.getSize_ok hr
  obtain ⟨hi, hstored⟩ := h.eq_ok_of_callNode hn .getRecord
    (Node.storedRecord b.id.key) (fun b _ => b) hbytes
  have hheld := Node.storedRecord_ok hstored
  obtain ⟨n₀, hn₀, hafter⟩ := hn
  refine ⟨hi, ?_⟩
  rcases hnothing i n₀ hn₀ with hpart | hnone
  · exact hpart.after hafter
  · rw [hafter.held, hnone] at hheld
    simp at hheld

/-- The slots that hold their part of the block and answer. -/
def Answers (b : Block) (dead : Set ℕ) (c : Cluster) (i : ℕ) : Prop :=
  i ∉ dead ∧ ∀ n, c.slotNode? i = some n → n.HoldsPart c.geometry b i

include hnothing in
theorem serves (h : c.Later b dead before) (hb : b.Fits) {good : Finset ℕ}
    (hgood : ∀ i < c.geometry.total, i ∈ good ↔ Answers b dead c i) (calls i : ℕ) :
    c.Serves b good calls i := by
  refine .of_holds h.bound hb (hnothing i) (fun k n start x hn hx => ?_)
    (fun k n start x hn hx => ?_) (fun hi n hn => ?_) calls
  · exact Node.storedRecord_ok (h.eq_ok_of_callNode hn .getRecord
      (Node.storedRecord b.id.key) (fun b _ => b) hx).2
  · exact Node.storedShard_ok (h.eq_ok_of_callNode hn .get
      (Node.storedShard b.id.key) (fun b _ => b) hx).2
  · have hlt := h.bound.lt_total hn
    obtain ⟨hlives, hholds⟩ := (hgood i hlt).1 hi
    exact ⟨hholds n hn, h.lives i n hn hlives⟩

include hnothing in
/-- Enough slots that hold their part and answer give the block. -/
theorem read_of_enough (h : c.Later b dead before) (hb : b.Fits) (h2 : 2 ≤ c.geometry.data)
    {good : Finset ℕ} (hrange : good ⊆ Finset.range c.geometry.total)
    (hgood : ∀ i < c.geometry.total, i ∈ good ↔ Answers b dead c i)
    (hk : c.geometry.data ≤ good.card) :
    ((Cluster.size .never b.id).run c).1 = .ok b.size ∧
      ((Cluster.get .never b.id).run c).1 = .ok b := by
  have hserves := h.serves hnothing hb hgood 0
  have hsize : Op.Triple (Each c.layout (c.Since 0)) (Cluster.size .never b.id)
      (fun n _ => n = b.size) fun _ _ => False :=
    Op.Triple.timed ((Op.Triple.agreedSize_told hb h2 hrange hk hserves).imp_ok fun _ _ h => h.1)
      (fun _ _ _ h => h) fun _ _ _ h => h
  obtain ⟨n, hn, rfl⟩ := hsize.exists_ok h.bound.each
  obtain ⟨b', hb', rfl⟩ := (Op.Triple.get_answered hb h2 hrange hk hserves).exists_ok h.bound.each
  exact ⟨hn, hb'⟩

include hnothing in
/-- Fewer slots give nothing. -/
theorem sizeOf_of_few (h : c.Later b dead before) (h2 : 2 ≤ c.geometry.data) {good : Finset ℕ}
    (hgood : ∀ i < c.geometry.total, i ∈ good ↔ Answers b dead c i)
    (hk : good.card < c.geometry.data) :
    ∃ e : Failure, (e.isCanceled ∨ e = unavailable b.id.key c.geometry.data (c.records b.id)) ∧
      c.sizeOf b.id = .error e := by
  have hfew : (c.records b.id).countP Outcome.isOk < c.geometry.data := by
    refine Nat.lt_of_le_of_lt ?_ hk
    rw [countP_eq_card_filter]
    refine Finset.card_le_card fun i hi => ?_
    rw [Finset.mem_filter, Finset.mem_range, h.bound.length_records] at hi
    obtain ⟨hi, hok⟩ := hi
    refine (hgood i hi).2 ?_
    rw [h.bound.getElem?_records] at hok
    obtain ⟨n, hn⟩ := h.bound.exists_slotNode? hi
    rw [hn, Option.map_some, Option.any_some, ← Node.outcome_getSize] at hok
    cases ho : (callNode c.sizeTerms i (Node.getSize b.id.key) n).1.outcome with
    | error e => simp [ho, Outcome.isOk] at hok
    | ok r =>
      obtain ⟨hlives, hholds⟩ := h.holdsPart_of_record hnothing ⟨n, hn, .refl n⟩ ho
      refine ⟨hlives, fun n' hn' => ?_⟩
      obtain rfl := Option.some.inj (hn.symm.trans hn')
      exact hholds
  rw [sizeOf, if_neg (Nat.not_lt.2 h2)]
  exact concludeSize_few_cases hfew false b.id.key

end

end Cluster.Later

/-- **What was acknowledged is never said to be unknown.** A block was written under a quorum, and
there are no more parity shards than data shards. As long as no slot loses its part, nobody is told
that the block was never written, whichever slots fail; if the other slots hold nothing in its
place, the block is read, or it is said to be unavailable. -/
theorem Cluster.readable_of_put {c : Cluster} (hc : c.Bound) (h2 : 2 ≤ c.geometry.data)
    (hparity : c.geometry.parity ≤ c.geometry.data) (hpolicy : c.policy = .quorum) {token : Token}
    (hok : ((Cluster.put token b).run c).1 = .ok ()) {dead : Set ℕ} {c' : Cluster}
    (h : c'.Later b dead ((Cluster.put token b).run c).2.2) :
    let size := ((Cluster.size .never b.id).run c').1
    let read := ((Cluster.get .never b.id).run c').1
    (∀ key, size ≠ .error (.blockUnknown key) ∧ read ≠ .error (.blockUnknown key)) ∧
    ((∀ i n, c'.slotNode? i = some n → n.HoldsPart c'.geometry b i ∨
        n.store.held (Text.utf8 b.id.key) = (none, none)) →
      (size = .ok b.size ∧ read = .ok b) ∨
      ∃ e : Failure,
        (e.isCanceled ∨ ∃ agreeing required failed, e = .readQuorum agreeing required failed) ∧
        size = .error e ∧ read = .error e) := by
  intro size read
  obtain ⟨hb, stored, hrange, hq, hafter⟩ :=
    (Op.Triple.put_stored hc hpolicy token).run_ok rfl hok
  have hg : c'.geometry = c.geometry := h.geometry.trans hafter.geometry
  have hstored : ∀ i ∈ stored, ∀ n, c'.slotNode? i = some n → n.HoldsPart c'.geometry b i := by
    intro i hi n' hn'
    have hlt := Finset.mem_range.1 (hrange hi)
    obtain ⟨n, hn, hpart⟩ := hafter.exists_node hlt
    exact h.keeps i n n' hn hn' (hafter.geometry.symm ▸ hpart hi)
  have hsize : size = c'.sizeOf b.id := (Op.Triple.size_never b.id c').run_eq rfl
  have hread : read = c'.blockOf b.id := (Op.Triple.get_never b.id c').run_eq rfl
  have hcount : c'.geometry.total < c'.geometry.data + stored.card := by
    have hk := c.geometry.data_pos
    rw [thresholds, Geometry.thresholds, Thresholds.ofCounts] at hq
    rw [hg, Geometry.total]
    simp only at hq
    split at hq <;> omega
  have hne := h.sizeOf_ne_blockUnknown hb (hg.symm ▸ hrange) hstored hcount
  refine ⟨fun key => ⟨hsize ▸ hne key, hread ▸ Later.blockOf_ne_blockUnknown hne key⟩,
    fun hnothing => ?_⟩
  classical
  set good : Finset ℕ := {i ∈ Finset.range c'.geometry.total | Later.Answers b dead c' i}
  have hgood : ∀ i < c'.geometry.total, i ∈ good ↔ Later.Answers b dead c' i := fun i hi => by
    rw [Finset.mem_filter, Finset.mem_range]
    exact and_iff_right hi
  rcases Nat.lt_or_ge good.card c'.geometry.data with hfew | henough
  · obtain ⟨e, he, hr⟩ := h.sizeOf_of_few hnothing (hg.symm ▸ h2) hgood hfew
    refine Or.inr ⟨e, he.imp_right ?_, hsize.trans hr, ?_⟩
    · rintro rfl
      rw [unavailable] at hr ⊢
      split at hr
      · exact absurd hr (hne _)
      · rw [if_neg ‹_›]
        exact ⟨_, _, _, rfl⟩
    · rw [hread, blockOf, hr]
      rfl
  · exact Or.inl (h.read_of_enough hnothing hb (hg.symm ▸ h2) (Finset.filter_subset ..) hgood henough)

namespace Cluster

/-- Three empty slots. -/
def threeSlots : Cluster where
  codec := .ofGeometry .twoAndOne 0
  policy := .quorum
  limit := some 1000
  slots := [⟨"", 0⟩, ⟨"", 1⟩, ⟨"", 2⟩]
  nodes := [.ofStore "" (.memory (.empty 0)), .ofStore "" (.memory (.empty 0)),
    .ofStore "" (.memory (.empty 0))]
  journal := []

/-- The same after three bytes were written to them; the last slot refuses every call. -/
def threeSlotsLater (key : String) : Cluster :=
  { threeSlots with
    nodes := [holding key [3, 0, 0, 0] [1, 2], holding key [3, 0, 0, 0] [3, 0],
      { holding key [3, 0, 0, 0] [5, 6] with
        weather := fun _ _ => ⟨0, .refuse (.transport "")⟩ }] }

/-- A block that three slots store is not said to be unknown when one of them is gone. -/
theorem readable_of_threeSlots :
    let b : Block := ⟨.blake3, [1, 2, 3]⟩
    let c' := threeSlotsLater b.id.key
    c'.Later b {2} ((Cluster.put .never b).run threeSlots).2.2 ∧
      ∀ key, ((Cluster.get .never b.id).run c').1 ≠ .error (.blockUnknown key) := by
  intro b c'
  have hpart : ∀ i n, c'.slotNode? i = some n → n.HoldsPart c'.geometry b i ∧
      ∀ t m, n.weather t m = ⟨0, if i = 2 then .refuse (.transport "") else .pass⟩ := by
    intro i n hn
    match i with
    | 0 | 1 | 2 =>
      obtain rfl := Option.some.inj hn
      refine ⟨(held_holding ..).trans ?_, fun _ _ => rfl⟩
      decide +kernel
    | i + 3 => simp [c', Cluster.slotNode?, threeSlotsLater, threeSlots] at hn
  have hlater : c'.Later b {2} ((Cluster.put .never b).run threeSlots).2.2 := by
    refine ⟨⟨rfl, by decide, by decide⟩, by decide +kernel, fun i n n' _ hn' _ => (hpart i n' hn').1,
      fun i n hn hi t _ m => ?_, fun i n hn hi t _ m => ?_⟩
    · rw [Set.mem_singleton_iff] at hi
      rw [(hpart i n hn).2, if_neg hi]
      exact Disturbance.calm_passes _
    · rw [Set.mem_singleton_iff] at hi
      rw [(hpart i n hn).2, if_pos hi]
      exact Or.inr (Or.inr ⟨_, by decide, rfl⟩)
  have hok : ((Cluster.put .never b).run threeSlots).1 = .ok () := by decide +kernel
  refine ⟨hlater, fun key => ?_⟩
  have hbound : threeSlots.Bound := ⟨rfl, by decide, by decide⟩
  exact ((readable_of_put hbound (by decide) (by decide) rfl hok hlater).1 key).2

/-- Five empty slots. The first two answer their first call and refuse all others; the last three
refuse their first call and answer all others. -/
def farSlots : Cluster where
  codec := .ofGeometry ⟨2, 3, Geometry.twoAndOne.data_pos, by decide, by decide⟩ 0
  policy := .quorum
  limit := none
  slots := [⟨"", 0⟩, ⟨"", 1⟩, ⟨"", 2⟩, ⟨"", 3⟩, ⟨"", 4⟩]
  nodes := near :: near :: [far, far, far]
  journal := []
where
  near : Node :=
    ⟨"", .memory (.empty 0), fun t _ => ⟨0, if t = 0 then .pass else .refuse (.transport "")⟩, 0⟩
  far : Node :=
    ⟨"", .memory (.empty 0), fun t _ => ⟨0, if t = 0 then .refuse (.transport "") else .pass⟩, 0⟩

set_option maxRecDepth 100000 in
/-- A write succeeds, and then the block is said to be unknown although no slot lost its part. -/
theorem unknown_of_farSlots :
    let b : Block := ⟨.blake3, [1, 2, 3]⟩
    let written := (Cluster.put .never b).run farSlots
    written.1 = .ok () ∧
      ((Cluster.size .never b.id).run written.2.2).1 = .error (.blockUnknown b.id.key) ∧
      ((Cluster.get .never b.id).run written.2.2).1 = .error (.blockUnknown b.id.key) := by
  decide +kernel

end Cluster

end ErasureVault
