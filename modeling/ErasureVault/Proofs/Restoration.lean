/-
  Repairs that restore a slot.

  * `Cluster.Owing`: a slot is reached and has room, and for each key that another slot lists and it
    does not hold, enough of the other slots answer with their parts of a block, and none with
    anything else;
  * the repair of a key that the slot lacks writes its part of the block (`repairKey_owed`), and
    that of a key that it holds does nothing (`repairKey_held`). Hence a repair succeeds, gives the
    slot its parts of those blocks, and touches nothing else (`repair_of_owing`).
-/
import ErasureVault.Proofs.Answers
import ErasureVault.Proofs.Room
import ErasureVault.Proofs.Scans
import ErasureVault.Proofs.Tolerance

namespace ErasureVault

open Function

variable {g : Geometry} {b : Block} {slot : ℕ}

/-! ## What a slot is given -/

namespace Geometry

/-- What a slot holds once it was given its parts of some blocks. -/
def replenished (g : Geometry) (slot : ℕ) (blocks : List Block)
    (held : Bytes → Option Bytes × Option Bytes) : Bytes → Option Bytes × Option Bytes :=
  blocks.foldl (fun held b => update held (Text.utf8 b.id.key) (g.part b slot)) held

/-- The bytes of the parts of some blocks. -/
def partBytes (g : Geometry) (blocks : List Block) : ℕ :=
  (blocks.map fun b => SizeRecord.byteLength + g.shardLength b.size).sum

variable {blocks : List Block} {held : Bytes → Option Bytes × Option Bytes}

theorem replenished_append (g : Geometry) (slot : ℕ) (earlier later : List Block)
    (held : Bytes → Option Bytes × Option Bytes) :
    g.replenished slot (earlier ++ later) held =
      g.replenished slot later (g.replenished slot earlier held) :=
  List.foldl_append

theorem replenished_of_ne {k : Bytes} (h : ∀ b ∈ blocks, k ≠ Text.utf8 b.id.key) :
    g.replenished slot blocks held k = held k := by
  induction blocks generalizing held with
  | nil => rfl
  | cons b blocks ih =>
    obtain ⟨hb, hblocks⟩ := List.forall_mem_cons.1 h
    exact (ih hblocks).trans (update_of_ne hb ..)

theorem replenished_of_mem (hnodup : (blocks.map fun b => b.id.key).Nodup) (hb : b ∈ blocks) :
    g.replenished slot blocks held (Text.utf8 b.id.key) = g.part b slot := by
  induction blocks generalizing held with
  | nil => simp at hb
  | cons b' blocks ih =>
    obtain ⟨hnot, hnodup⟩ := List.nodup_cons.1 hnodup
    rcases List.mem_cons.1 hb with rfl | hb
    · have hne : ∀ b' ∈ blocks, Text.utf8 b.id.key ≠ Text.utf8 b'.id.key := fun b' hb' h =>
        hnot (List.mem_map.2 ⟨b', hb', (Text.utf8_injective h).symm⟩)
      exact (replenished_of_ne hne).trans (update_self ..)
    · exact ih hnodup hb

end Geometry

/-- Of the blocks that are owed to a slot which holds `held`, those that have their keys among `done`
are `earlier`, and the others are `later`. -/
structure Owed (held : Bytes → Option Bytes × Option Bytes) (owed : List Block) (done : List String)
    (earlier later : List Block) : Prop where
  split : owed = earlier ++ later
  keys : earlier.map (fun b => b.id.key) =
    done.filter fun key => (held (Text.utf8 key)).1.isNone

namespace Owed

variable {held : Bytes → Option Bytes × Option Bytes} {owed earlier later : List Block}
  {done rest : List String} {key : String}

/-- What was repaired before does not concern the next key. -/
theorem fresh (h : Owed held owed done earlier later) (hnodup : (done ++ key :: rest).Nodup) :
    g.replenished slot earlier held (Text.utf8 key) = held (Text.utf8 key) := by
  refine Geometry.replenished_of_ne fun b hb hkey => ?_
  have hmem : b.id.key ∈ done := by
    have := List.mem_map_of_mem (f := fun b : Block => b.id.key) hb
    rw [h.keys] at this
    exact List.mem_of_mem_filter this
  exact (List.nodup_append.1 hnodup).2.2 _ hmem _ List.mem_cons_self (Text.utf8_injective hkey).symm

/-- A key that the slot lacks is that of the next block. -/
theorem next (h : Owed held owed done earlier later)
    (howes : owed.map (fun b => b.id.key) =
      (done ++ key :: rest).filter fun key => (held (Text.utf8 key)).1.isNone)
    (hlacks : (held (Text.utf8 key)).1 = none) : ∃ b later', later = b :: later' ∧ b.id.key = key := by
  rw [h.split, List.map_append, List.filter_append, ← h.keys, List.append_cancel_left_eq,
    List.filter_cons_of_pos (by simp [hlacks])] at howes
  cases later with
  | nil => simp at howes
  | cons b later => exact ⟨b, later, rfl, (List.cons.inj howes).1⟩

theorem repaired (h : Owed held owed done earlier (b :: later))
    (hlacks : (held (Text.utf8 b.id.key)).1 = none) :
    Owed held owed (done ++ [b.id.key]) (earlier ++ [b]) later :=
  ⟨by simp [h.split], by simp [h.keys, hlacks]⟩

theorem skipped (h : Owed held owed done earlier later) {record : Bytes}
    (hheld : (held (Text.utf8 key)).1 = some record) :
    Owed held owed (done ++ [key]) earlier later :=
  ⟨h.split, by simp [h.keys, hheld]⟩

/-- In the end nothing is left. -/
theorem eq_nil (h : Owed held owed done earlier later) (howes : owed.map (fun b => b.id.key) =
    done.filter fun key => (held (Text.utf8 key)).1.isNone) : later = [] := by
  rw [h.split, List.map_append, ← h.keys, List.append_right_eq_self] at howes
  exact List.map_eq_nil_iff.1 howes

end Owed

namespace Node

/-- A slot that is reached gives no record but that which it holds. -/
theorem held_of_getRecord {n : Node} {limit : Option ℕ} {key label : String} {start : ℕ} {x : Bytes}
    (hpass : (n.weather n.calls .getRecord).Passes limit)
    (hx : (callNode ⟨label, .never, limit, start⟩ slot (Node.getRecord key) n).1.outcome = .ok x) :
    (n.store.held (Text.utf8 key)).1 = some x :=
  storedRecord_ok ((callNode_of_passes hpass).1.symm.trans hx)

/-- The node `n` holds what `target` holds, and its parts of the blocks `earlier`; there is room for
those of the blocks `later`. -/
structure Replenished (g : Geometry) (slot : ℕ) (earlier later : List Block) (target n : Node) :
    Prop where
  held : n.store.held = g.replenished slot earlier target.store.held
  room : n.store.HasRoom (g.partBytes later)

namespace Replenished

variable {n n' target : Node} {earlier later : List Block} {k : ℕ}

theorem after (h : target.Replenished g slot earlier later n) (hn : n.After k n') :
    target.Replenished g slot earlier later n' :=
  ⟨hn.held.trans h.held, h.room.of_unread hn.unread⟩

/-- The part of the next block is stored. -/
theorem put (h : target.Replenished g slot earlier (b :: later) n) {x : Bytes}
    (hx : (g.encode b.data)[slot]? = some x) :
    ∃ st, n.store.put b.id.key b.record.encode x = (.ok (), st) ∧
      ∀ n', n'.store = st → target.Replenished g slot (earlier ++ [b]) later n' := by
  have hroom : n.store.HasRoom (b.record.encode.length + x.length + g.partBytes later) := by
    have := h.room
    rwa [Geometry.partBytes, List.map_cons, List.sum_cons, ← b.record.length_encode,
      Block.size, ← Geometry.length_of_mem_encode (List.mem_of_getElem? hx)] at this
  obtain ⟨st, hput, hheld, hroom⟩ := hroom.put b.id.key
  refine ⟨st, hput, ?_⟩
  rintro n' rfl
  refine ⟨?_, hroom⟩
  rw [hheld, h.held, ← hx, Geometry.replenished_append]
  rfl

end Replenished

/-- The node `n` is `target` some calls later, and was given its parts of the blocks `earlier`. -/
structure Restoring (g : Geometry) (slot : ℕ) (earlier later : List Block) (target n : Node) : Prop
    extends target.Replenished g slot earlier later n where
  weather : n.weather = target.weather
  calls : target.calls ≤ n.calls
  untouched : earlier = [] → n.store.unread = target.store.unread

namespace Restoring

variable {n n' target : Node} {earlier later : List Block} {k : ℕ}

theorem refl {blocks : List Block} (h : target.store.HasRoom (g.partBytes blocks)) :
    target.Restoring g slot [] blocks target :=
  ⟨⟨rfl, h⟩, rfl, Nat.le_refl _, fun _ => rfl⟩

theorem after (h : target.Restoring g slot earlier later n) (hn : n.After k n') :
    target.Restoring g slot earlier later n' where
  toReplenished := h.toReplenished.after hn
  weather := hn.weather.trans h.weather
  calls := by
    have := h.calls
    rw [hn.calls]
    omega
  untouched he := hn.unread.trans (h.untouched he)

/-- The slot stores its part of the next block. -/
theorem put (h : target.Restoring g slot earlier (b :: later) n) {limit : Option ℕ}
    (hpass : (n.weather n.calls .put).Passes limit) {x : Bytes}
    (hx : (g.encode b.data)[slot]? = some x) (start : ℕ) :
    let s := callNode ⟨"put", .never, limit, start⟩ slot (Node.put b.id.key b.record.encode x) n
    s.1.outcome = .ok () ∧ target.Restoring g slot (earlier ++ [b]) later s.2 := by
  intro s
  obtain ⟨ho, hafter⟩ : s.1.outcome = (n.store.put b.id.key b.record.encode x).1 ∧
      s.2 = Node.tick { n with store := (n.store.put b.id.key b.record.encode x).2 } :=
    callNode_of_passes hpass
  obtain ⟨st, hput, hreplenished⟩ := h.toReplenished.put hx
  rw [hput] at ho hafter
  refine ⟨ho, hafter ▸ ⟨hreplenished _ rfl, h.weather, Nat.le_succ_of_le h.calls, fun he => ?_⟩⟩
  simp at he

end Restoring

end Node

/-! ## What the other slots answer -/

/-- **What enough good answers give are shards of the block**, and enough to rebuild any. -/
theorem Gathered.of_good {good : Finset ℕ} {id : Digest} {size : ℕ} {s : Stripe}
    (hs : Gathered g .never (Told b.record good) (fun i a => 0 < b.size → Given g b good i a)
      id size s)
    (hb : b.Fits) (hrange : good ⊆ Finset.range g.total) (hk : g.data ≤ good.card)
    (hkey : b.id.key = id.key) :
    id = b.id ∧ size = b.size ∧ s.Of g b ∧ (0 < b.size → g.data ≤ s.present.length) := by
  have hsize : size = b.size :=
    (Except.ok.inj (hs.agreed.eq_ok hrange hk)).trans hb.size_record
  obtain ⟨hof, hp⟩ := (hsize ▸ hs.collected).of_given hrange
  exact ⟨(Digest.key_injective hkey).symm, hsize, hof, fun hpos => hk.trans (hp hpos)⟩

/-- The calls that a slot gets when it helps to rebuild a shard of the block: an empty block has no
shards to ask for. -/
def Block.reads (b : Block) : ℕ :=
  if b.size = 0 then 1 else 2

namespace Cluster

/-- The calls that a slot got before the blocks `earlier` were repaired; the source was scanned. -/
def readsBefore (source : ℕ) (earlier : List Block) (i : ℕ) : ℕ :=
  (if i = source then 1 else 0) + (earlier.map Block.reads).sum

theorem readsBefore_concat (source : ℕ) (earlier : List Block) (b : Block) (i : ℕ) :
    readsBefore source (earlier ++ [b]) i = readsBefore source earlier i + b.reads := by
  simp [readsBefore, Nat.add_assoc]

/-- The slot `slot` is reached and has room, and it lacks its parts of the blocks `owed`, in the order
in which the slot `source` lists its keys. When a block has its turn, enough of the other slots
answer with their parts of it, and none with anything else. -/
structure Owing (source slot : ℕ) (keys : List String) (owed : List Block) (target : Node)
    (c : Cluster) : Prop where
  bound : c.Bound
  data : 2 ≤ c.geometry.data
  node : c.slotNode? slot = some target
  lists : ∃ n, c.slotNode? source = some n ∧ n.scan = keys.map .ok
  answers : ∀ t ≥ target.calls, ∀ m, (target.weather t m).Passes c.limit
  room : target.store.HasRoom (c.geometry.partBytes owed)
  owes : owed.map (fun b => b.id.key) =
    keys.filter fun key => (target.store.held (Text.utf8 key)).1.isNone
  fits : ∀ b ∈ owed, b.Fits
  serves : ∀ earlier b later, owed = earlier ++ b :: later →
    ∃ good ⊆ Finset.range c.geometry.total, c.geometry.data ≤ good.card ∧ slot ∉ good ∧
      ∀ i ≠ slot, c.Serves b good (readsBefore source earlier i) i

variable {c : Cluster} {source : ℕ} {keys : List String} {owed earlier later : List Block}
  {target : Node} {good : Finset ℕ}

/-- What is known of the nodes once the blocks `earlier` were repaired, and `extra` more calls of the
other slots were made. -/
def Stage (c : Cluster) (source slot : ℕ) (target : Node) (earlier later : List Block) (extra : ℕ) :
    ℕ → Node → Prop :=
  update (fun i => c.Since (readsBefore source earlier i + extra) i) slot
    (target.Restoring c.geometry slot earlier later)

theorem stage_self {extra : ℕ} {n : Node} :
    c.Stage source slot target earlier later extra slot n ↔
      target.Restoring c.geometry slot earlier later n := by
  rw [Stage, update_self]

theorem stage_of_ne {extra i : ℕ} (hi : i ≠ slot) {n : Node} :
    c.Stage source slot target earlier later extra i n ↔
      c.Since (readsBefore source earlier i + extra) i n := by
  rw [Stage, update_of_ne hi]

/-- Reading leaves the slots as they are. -/
theorem Stage.after {extra k i : ℕ} {n n' : Node}
    (h : c.Stage source slot target earlier later extra i n) (hn : n.After k n') :
    c.Stage source slot target earlier later (extra + k) i n' := by
  by_cases hi : i = slot
  · subst hi
    exact stage_self.2 ((stage_self.1 h).after hn)
  · rw [stage_of_ne hi] at h ⊢
    exact Nat.add_assoc _ extra k ▸ h.after hn

namespace Owing

variable (h : c.Owing source slot keys owed target)

include h in
theorem slot_lt : slot < c.geometry.total :=
  h.bound.lt_total h.node

include h in
theorem passes {n : Node} (hn : target.Restoring c.geometry slot earlier later n) (m : Method) :
    (n.weather n.calls m).Passes c.limit := by
  rw [hn.weather]
  exact h.answers _ hn.calls m

include h in
/-- The slots when the source was scanned. -/
theorem stage_of_scan {sourceNode : Node} (hsource : c.slotNode? source = some sourceNode) {i : ℕ}
    {n : Node} (hn : update (fun i n => c.slotNode? i = some n) source (· = sourceNode.tick) i n) :
    c.Stage source slot target [] owed 0 i n := by
  have hafter : ∃ n₀, c.slotNode? i = some n₀ ∧ n₀.After (readsBefore source [] i) n := by
    rw [readsBefore]
    by_cases hi : i = source
    · subst hi
      rw [update_self] at hn
      exact ⟨sourceNode, hsource, by simpa [hn] using sourceNode.after_tick⟩
    · rw [update_of_ne hi] at hn
      exact ⟨n, hn, by simpa [hi] using Node.After.refl n⟩
  by_cases hi : i = slot
  · subst hi
    obtain ⟨n₀, hn₀, hafter⟩ := hafter
    obtain rfl := Option.some.inj (h.node.symm.trans hn₀)
    exact stage_self.2 ((Node.Restoring.refl h.room).after hafter)
  · exact (stage_of_ne hi).2 hafter

end Owing

/-- The repair of a block that the slot lacks. -/
def Owing.restoring (h : c.Owing source slot keys owed target) (hb : b.Fits)
    (hrange : good ⊆ Finset.range c.geometry.total) (hk : c.geometry.data ≤ good.card)
    (hgood : slot ∉ good)
    (hserves : ∀ i ≠ slot, c.Serves b good (readsBefore source earlier i) i)
    (hlacks : (c.geometry.replenished slot earlier target.store.held (Text.utf8 b.id.key)).1 = none) :
    Repairing c.layout .never slot b.id.key where
  before := c.Stage source slot target earlier (b :: later) 0
  probed o n := (∀ x, o ≠ .ok x) ∧ target.Restoring c.geometry slot earlier (b :: later) n
  record := Told b.record good
  sized := c.Stage source slot target earlier (b :: later) 1
  shard i a := 0 < b.size → Given c.geometry b good i a
  fetched := c.Stage source slot target earlier (b :: later) 2
  stored o n := o = .ok () ∧ target.Restoring c.geometry slot (earlier ++ [b]) later n
  probe start n hn := by
    rw [stage_self] at hn
    refine ⟨fun x hx => ?_, hn.after (Node.after_getRecord _ slot b.id.key n)⟩
    have hheld := Node.held_of_getRecord (h.passes hn .getRecord) hx
    simp [hn.held, hlacks] at hheld
  size e start i n _ hn := by
    have hstage : c.Stage source slot target earlier (b :: later) 0 i n := by
      by_cases hi : i = slot
      · subst hi
        rw [update_self] at hn
        exact stage_self.2 hn.2
      · rwa [update_of_ne hi] at hn
    refine ⟨hstage.after (Node.after_getSize _ i b.id.key n), ?_⟩
    by_cases hi : i = slot
    · subst hi
      rw [stage_self] at hstage
      refine ⟨fun hi => absurd hi hgood, fun r hr => ?_⟩
      obtain ⟨x, hx, -⟩ := Node.getSize_ok hr
      have hheld := Node.held_of_getRecord (h.passes hstage .getRecord) hx
      simp [hstage.held, hlacks] at hheld
    · exact (hserves i hi).record start n ((stage_of_ne hi).1 hstage)
  fetch start i n _ hn := by
    refine ⟨hn.after (Node.after_getUnless _ i b.id.key _ n), fun hpos => ?_⟩
    by_cases hi : i = slot
    · subst hi
      refine ⟨fun hi => absurd hi hgood, fun x hx => Or.inl (Node.eq_nil_of_left rfl hx)⟩
    · have hne : ¬ some slot = some i := fun he => hi (Option.some.inj he).symm
      simp only [hne, if_false]
      exact (hserves i hi).shard hpos start n ((stage_of_ne hi).1 hn)
  put id m s x r hkey hs hx hr start n hn := by
    have hstage : target.Restoring c.geometry slot earlier (b :: later) n := by
      split at hn <;> exact stage_self.1 hn
    obtain ⟨rfl, rfl, hof, -⟩ := hs.of_good hb hrange hk hkey
    obtain rfl : r = b.record := (Block.ofSize_eq_ok_iff.1 hr).2
    exact hstage.put (h.passes hstage .put) (hof.owedShard_ok h.slot_lt hx) start

/-- The repair of a key that the slot holds. -/
def Owing.holding (h : c.Owing source slot keys owed target) (later : List Block) {key : String}
    (hholds : (c.geometry.replenished slot earlier target.store.held (Text.utf8 key)).1.isSome) :
    Repairing c.layout .never slot key where
  before := c.Stage source slot target earlier later 0
  probed o n := (∃ x, o = .ok x) ∧ target.Restoring c.geometry slot earlier later n
  record _ _ := True
  sized i _ := i ≠ slot
  shard _ _ := True
  fetched i _ := i ≠ slot
  stored _ _ := False
  probe start n hn := by
    rw [stage_self] at hn
    refine ⟨?_, hn.after (Node.after_getRecord _ slot key n)⟩
    obtain ⟨x, hx⟩ := Option.isSome_iff_exists.1 hholds
    rw [← hn.held] at hx
    exact ⟨x, (callNode_of_passes (h.passes hn .getRecord)).1.trans (Node.storedRecord_of_held hx)⟩
  size e start i n _ hn := by
    refine ⟨?_, trivial⟩
    rintro rfl
    rw [update_self] at hn
    obtain ⟨⟨x, hx⟩, -⟩ := hn
    simp at hx
  fetch start i n _ hn := ⟨hn, trivial⟩
  put id m s x r _ _ _ _ start n hn := by
    split at hn <;> exact absurd rfl hn

end Cluster

namespace Op.Triple

open Cluster

variable {c : Cluster} {source : ℕ} {keys : List String} {owed earlier later : List Block}
  {target : Node}

/-- **A block that the slot lacks is repaired.** -/
theorem repairKey_owed (h : c.Owing source slot keys owed target)
    (hsplit : owed = earlier ++ b :: later)
    (hlacks : (c.geometry.replenished slot earlier target.store.held (Text.utf8 b.id.key)).1 = none) :
    Triple (Each c.layout (c.Stage source slot target earlier (b :: later) 0))
      (Cluster.repairKey .never slot b.id.key)
      (fun written c' => written = some (c.geometry.shardLength b.size) ∧
        c'.Each c.layout (c.Stage source slot target (earlier ++ [b]) later 0))
      fun _ _ => False := by
  obtain ⟨good, hrange, hk, hgood, hserves⟩ := h.serves earlier b later hsplit
  have hb : b.Fits := h.fits b (hsplit ▸ List.mem_append_right _ List.mem_cons_self)
  set p := h.restoring hb hrange hk hgood hserves hlacks
  refine (repairKey_steps p h.slot_lt).conseq (fun _ hc' => hc') (fun written c' hc' => ?_)
    fun e c' hc' => ?_
  · cases hc' with
    | skipped record hc' =>
      obtain ⟨n, hn, -⟩ := hc'.exists_of_update h.slot_lt
      exact absurd rfl (hn record)
    | written id m s x r hkey hs hx hr hc' =>
      obtain ⟨rfl, rfl, hof, -⟩ := hs.of_good hb hrange hk hkey
      have hencode := hof.owedShard_ok h.slot_lt hx
      refine ⟨congrArg some (Geometry.length_of_mem_encode (List.mem_of_getElem? hencode)), ?_⟩
      have hread : p.read b.size = c.Stage source slot target earlier (b :: later) b.reads := by
        have hiff : c.geometry.shardLength b.size = 0 ↔ b.size = 0 :=
          Geometry.shardLength_eq_zero_iff
        change (if c.geometry.shardLength b.size = 0 then p.sized else p.fetched) = _
        simp only [Block.reads, hiff]
        split <;> rfl
      rw [hread] at hc'
      refine hc'.of_update (fun i hi n hn => ?_) fun n hn => stage_self.2 hn.2
      rw [stage_of_ne hi, ← readsBefore_concat] at hn
      exact (stage_of_ne hi).2 hn
  · cases hc' with
    | unasked e' he hc' =>
      rcases he with he | ⟨-, ht⟩ | ⟨h2, -⟩
      · rw [Digest.ofKey_eq_ok_iff.2 rfl] at he
        simp at he
      · exact ht rfl
      · exact absurd h.data (Nat.not_le.2 h2)
    | unsized id hkey hagreed hc' =>
      simpa using hagreed.eq_ok hrange hk
    | givenUp he hc' => exact he.2 rfl
    | unfound id m s hkey hs he hc' =>
      obtain ⟨rfl, rfl, hof, hp⟩ := hs.of_good hb hrange hk hkey
      obtain ⟨x, hx, -⟩ := hof.exists_owedShard hp h.slot_lt
      rcases he with he | he
      · simp [hx] at he
      · simp [hb.ofSize] at he
    | unstored id m s x r hkey hs hx hr hc' =>
      obtain ⟨n, hn, -⟩ := hc'.exists_of_update h.slot_lt
      simp at hn

/-- A key that the slot holds is skipped. -/
theorem repairKey_held (h : c.Owing source slot keys owed target) {key : String}
    (hholds : (c.geometry.replenished slot earlier target.store.held (Text.utf8 key)).1.isSome) :
    Triple (Each c.layout (c.Stage source slot target earlier later 0))
      (Cluster.repairKey .never slot key)
      (fun written c' => written = none ∧
        c'.Each c.layout (c.Stage source slot target earlier later 0))
      fun _ _ => False := by
  set p : Repairing c.layout .never slot key := h.holding later hholds
  have hread (m : ℕ) : p.read m = fun i _ => i ≠ slot := ite_self _
  have hnot {c' : Cluster} (hc' : c'.Each c.layout fun i _ => i ≠ slot) : False := by
    obtain ⟨n, -, hn⟩ := hc'.exists_node h.slot_lt
    exact hn rfl
  refine (repairKey_steps p h.slot_lt).conseq (fun _ hc' => hc') (fun written c' hc' => ?_)
    fun e c' hc' => ?_
  · cases hc' with
    | skipped record hc' =>
      exact ⟨rfl, hc'.of_update (fun _ _ _ hn => hn) fun n hn => stage_self.2 hn.2⟩
    | written id m s x r hkey hs hx hr hc' =>
      obtain ⟨n, hn⟩ := hc'.exists_of_update h.slot_lt
      exact hn.elim
  · cases hc' with
    | unasked e' he hc' =>
      obtain ⟨n, ⟨x, hx⟩, -⟩ := hc'.exists_of_update h.slot_lt
      simp at hx
    | unsized id hkey hagreed hc' => exact hnot hc'
    | givenUp he hc' => exact hnot hc'
    | unfound id m s hkey hs he hc' => exact hnot (hread m ▸ hc')
    | unstored id m s x r hkey hs hx hr hc' =>
      obtain ⟨n, hn⟩ := hc'.exists_of_update h.slot_lt
      exact hn.elim

end Op.Triple

/-! ## Repairs -/

/-- The report on a repair that has looked at the keys `done` and written the shards of the blocks
`repaired`, of a slot that held `held`. -/
def Geometry.report (g : Geometry) (held : Bytes → Option Bytes × Option Bytes) (done : List String)
    (repaired : List Block) : RepairReport where
  scanned := done.length
  repaired := repaired.length
  skipped := done.countP fun key => (held (Text.utf8 key)).1.isSome
  written := (repaired.map fun b => g.shardLength b.size).sum

/-- Every key is that of a block that is owed, or is held. -/
theorem length_eq_add_countP {held : Bytes → Option Bytes × Option Bytes} {owed : List Block}
    {keys : List String} (howes : owed.map (fun b => b.id.key) =
      keys.filter fun key => (held (Text.utf8 key)).1.isNone) :
    keys.length = owed.length + keys.countP fun key => (held (Text.utf8 key)).1.isSome := by
  have hlength : owed.length = keys.countP fun key => (held (Text.utf8 key)).1.isNone := by
    rw [List.countP_eq_length_filter, ← howes, List.length_map]
  rw [hlength, List.length_eq_countP_add_countP fun key => (held (Text.utf8 key)).1.isNone]
  exact congrArg _ (List.countP_congr fun key _ => by simp [Option.isSome_iff_ne_none])

/-- The repair of `c` once the keys `done` were looked at. -/
def Cluster.Underway (c : Cluster) (source slot : ℕ) (target : Node) (owed : List Block)
    (done : List String) (r : RepairReport) (c' : Cluster) : Prop :=
  ∃ earlier later, Owed target.store.held owed done earlier later ∧
    r = c.geometry.report target.store.held done earlier ∧
    c'.Each c.layout (c.Stage source slot target earlier later 0)

namespace Op.Triple

open Cluster

variable {c : Cluster} {source : ℕ} {keys done rest : List String} {key : String}
  {owed : List Block} {target : Node}

/-- Every key is repaired or skipped. -/
theorem repairKey_underway (h : c.Owing source slot keys owed target) (hnodup : keys.Nodup)
    (hkeys : keys = done ++ key :: rest) (r : RepairReport) :
    Triple (c.Underway source slot target owed done r) (Cluster.repairKey .never slot key)
      (fun written => c.Underway source slot target owed (done ++ [key]) (r.add written))
      fun _ _ => False := by
  refine of_each ?_
  rintro c₁ ⟨earlier, later, howed, rfl, hc₁⟩
  have hsame : c.geometry.replenished slot earlier target.store.held (Text.utf8 key) =
      target.store.held (Text.utf8 key) := howed.fresh (hkeys ▸ hnodup)
  cases hheld : (target.store.held (Text.utf8 key)).1 with
  | none =>
    obtain ⟨b, later, rfl, rfl⟩ := howed.next (hkeys ▸ h.owes) hheld
    refine ((repairKey_owed h howed.split (hsame ▸ hheld)).each hc₁).imp_ok fun written c₂ hc₂ => ?_
    obtain ⟨rfl, hc₂⟩ := hc₂
    refine ⟨earlier ++ [b], later, howed.repaired hheld, ?_, hc₂⟩
    simp [Geometry.report, RepairReport.add, hheld]
  | some record =>
    refine ((repairKey_held h (by simp [hsame, hheld])).each hc₁).imp_ok fun written c₂ hc₂ => ?_
    obtain ⟨rfl, hc₂⟩ := hc₂
    refine ⟨earlier, later, howed.skipped hheld, ?_, hc₂⟩
    simp [Geometry.report, RepairReport.add, hheld]

/-- **What a repair does to a slot that is owed its parts of some blocks.** -/
theorem repair_owing (h : c.Owing source slot keys owed target) :
    Triple (· = c) (Cluster.repair .never source slot)
      (fun r c' => r = c.geometry.report target.store.held keys owed ∧
        c'.Each c.layout (c.Stage source slot target owed [] 0))
      fun _ _ => False := by
  obtain ⟨sourceNode, hsource, hscan⟩ := h.lists
  have hitems := Node.scanItems_of_scan hscan
  have hnodup : keys.Nodup := Node.nodup_of_scanItems hitems
  refine ((repair_of_steps (E := fun _ _ => False) (fun hrange => ?_) (fun _ _ n hn => ?_)
    (fun r c' j hc' => ?_) fun _ _ _ hc' => hc').each h.bound.each_self)
  · rcases hrange with hrange | hrange
    · exact absurd (h.bound.lt_total hsource) (Nat.not_lt.2 hrange)
    · exact absurd h.slot_lt (Nat.not_lt.2 hrange)
  · obtain rfl : sourceNode = n := Option.some.inj (hsource.symm.trans hn)
    refine (repairKeys_of_steps (I := c.Underway source slot target owed)
      (fun done key rest r hdone => ?_) (fun e done rest hdone => ?_) (fun ht => absurd rfl ht)
      fun done r c' j hc' => ?_).conseq (fun c' hc' => ⟨[], owed, ⟨rfl, rfl⟩, rfl, ?_⟩)
      (fun r c' hc' => ?_) fun _ _ hc' => hc'
    · obtain ⟨rest', hkeys⟩ := Node.keys_of_scan hitems hdone
      exact repairKey_underway h hnodup hkeys r
    · have hmem : Except.error e ∈ keys.map (Except.ok : String → Except Failure String) := by
        simp [← hscan, hdone]
      simp at hmem
    · obtain ⟨earlier, later, howed, hr, hc'⟩ := hc'
      exact ⟨earlier, later, howed, hr, hc'.journal j⟩
    · exact hc'.mono fun i n' hn' => h.stage_of_scan hsource hn'
    · obtain ⟨done, hdone, earlier, later, howed, rfl, hc'⟩ := hc'
      obtain rfl : keys = done := List.map_injective_iff.2 (fun _ _ => Except.ok.inj)
        (hscan.symm.trans hdone)
      obtain rfl := howed.eq_nil h.owes
      obtain rfl : owed = earlier := howed.split.trans (List.append_nil _)
      exact ⟨rfl, hc'⟩
  · exact ⟨hc'.1, hc'.2.journal j⟩

end Op.Triple

namespace Cluster

variable {c : Cluster} {source : ℕ} {keys : List String} {owed : List Block} {target : Node}

/-- **A repair restores what a slot is owed, and touches nothing else.** It succeeds, and then the
slot holds its parts of the blocks that it lacked, and under every other key what it held before;
the stores of the other slots are as before, up to their count of reads. -/
theorem repair_of_owing (h : c.Owing source slot keys owed target) :
    let run := (Cluster.repair .never source slot).run c
    let after := run.2.2
    let skipped := keys.countP fun key => (target.store.held (Text.utf8 key)).1.isSome
    run.1 = .ok ⟨keys.length, owed.length, skipped,
      (owed.map fun b => c.geometry.shardLength b.size).sum⟩ ∧
    keys.length = owed.length + skipped ∧
    after.Bound ∧ after.layout = c.layout ∧
    (∀ n, after.slotNode? slot = some n →
      (∀ b ∈ owed, n.store.held (Text.utf8 b.id.key) = c.geometry.part b slot) ∧
      ∀ k, (∀ b ∈ owed, k ≠ Text.utf8 b.id.key) → n.store.held k = target.store.held k) ∧
    ∀ i n n', i ≠ slot → c.slotNode? i = some n → after.slotNode? i = some n' →
      n'.store.unread = n.store.unread := by
  intro run after skipped
  obtain ⟨r, hrun, rfl, hafter⟩ := (Op.Triple.repair_owing h).exists_ok rfl
  have hnodup : (owed.map fun b => b.id.key).Nodup := by
    obtain ⟨n, -, hscan⟩ := h.lists
    rw [h.owes]
    exact (Node.nodup_of_scanItems (Node.scanItems_of_scan hscan)).filter _
  refine ⟨hrun, length_eq_add_countP h.owes, hafter.bound, hafter.layout, fun n hn => ?_,
    fun i n n' hi hn hn' => ?_⟩
  · have hheld := (stage_self.1 (hafter.nodes slot n hn)).held
    refine ⟨fun b hb => ?_, fun k hk => ?_⟩
    · rw [hheld, Geometry.replenished_of_mem hnodup hb]
    · rw [hheld, Geometry.replenished_of_ne hk]
  · obtain ⟨n₀, hn₀, hsince⟩ := (stage_of_ne hi).1 (hafter.nodes i n' hn')
    obtain rfl := Option.some.inj (hn.symm.trans hn₀)
    exact hsince.unread

theorem scan_holding (key : String) (record shard : Bytes) :
    (holding key record shard).scan = [.ok key] :=
  congrArg (fun item => [item]) (Store.scannedKey_utf8 key)

/-- Three slots, of which two hold their shards of three bytes; the third is empty, and has room for
six bytes. -/
def emptyThird (key : String) : Cluster where
  codec := .ofGeometry .twoAndOne 0
  policy := .quorum
  limit := some 1000
  slots := [⟨"", 0⟩, ⟨"", 1⟩, ⟨"", 2⟩]
  nodes := [holding key [3, 0, 0, 0] [1, 2], holding key [3, 0, 0, 0] [3, 0],
    .ofStore "" (.memory (.empty 6))]
  journal := []

/-- The third slot gets the parity of the three bytes. -/
theorem repair_of_emptyThird :
    let b : Block := ⟨.blake3, [1, 2, 3]⟩
    let c := emptyThird b.id.key
    c.Owing 0 2 [b.id.key] [b] (.ofStore "" (.memory (.empty 6))) ∧
      ((Cluster.repair .never 0 2).run c).1 = .ok ⟨1, 1, 0, 2⟩ := by
  intro b c
  have hc : c.Bound := ⟨rfl, by decide, by decide⟩
  have hpart : ∀ i n, i ≠ 2 → c.slotNode? i = some n → n.HoldsPart c.geometry b i ∧
      n.weather = fun _ _ => .calm := by
    intro i n hi hn
    match i with
    | 0 | 1 =>
      obtain rfl := Option.some.inj hn
      refine ⟨(held_holding ..).trans ?_, rfl⟩
      decide +kernel
    | 2 => exact absurd rfl hi
    | i + 3 => simp [c, Cluster.slotNode?, emptyThird] at hn
  have hserves (calls i : ℕ) (hi : i ≠ 2) : c.Serves b {0, 1} calls i := by
    refine .of_honest hc (by decide) (fun n hn t m b => ?_) (fun n hn => Or.inl (hpart i n hi hn).1)
      (fun _ n hn => ⟨(hpart i n hi hn).1, fun t _ m => ?_⟩) calls
    · rw [(hpart i n hi hn).2]
      exact Effect.noConfusion
    · rw [(hpart i n hi hn).2]
      exact Disturbance.calm_passes c.limit
  have howing : c.Owing 0 2 [b.id.key] [b] (.ofStore "" (.memory (.empty 6))) := by
    refine ⟨hc, by decide, rfl, ⟨_, rfl, scan_holding ..⟩,
      fun _ _ _ => Disturbance.calm_passes c.limit, Or.inr (by decide), rfl, by decide,
      fun earlier b' later h => ⟨{0, 1}, by decide, by decide, by decide, fun i hi => ?_⟩⟩
    cases earlier with
    | nil => exact (List.cons.inj h).1 ▸ hserves _ i hi
    | cons _ earlier => simp at h
  exact ⟨howing, (repair_of_owing howing).1.trans (by decide +kernel)⟩

end Cluster

end ErasureVault
