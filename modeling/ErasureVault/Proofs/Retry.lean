/-
  Repairs that are broken off and begun again.

  * `Cluster.Mendable`: the slots hold nothing but their own parts of blocks, and enough of the other
    slots hold those that a slot lacks. Whatever fails while the slot is repaired, it is given its
    parts of the first of those blocks, and nothing else changes (`repair_mendable`): what is
    left can be repaired still (`Mendable.resume`);
  * without faults a repair does all that is left (`Mendable.owing`). So a second repair
    makes of what a first one left what a single one makes of the beginning, and a third does
    nothing (`retry_of_mendable`).
-/
import ErasureVault.Node.Fault
import ErasureVault.Proofs.Restoration
import ErasureVault.Proofs.Runs

namespace ErasureVault

open Function

variable {g : Geometry} {b : Block} {slot : ℕ} {blocks : Set Block}

/-! ## A slot that is repaired -/

namespace Node

/-- The node `n` is `target` some calls later, whatever failed, and was given its parts of the
blocks `earlier`. -/
structure Resuming (g : Geometry) (blocks : Set Block) (slot : ℕ) (earlier later : List Block)
    (target n : Node) : Prop extends target.Replenished g slot earlier later n where
  consistent : n.Consistent g blocks slot
  metered : n.store.Metered

namespace Resuming

variable {n n' target : Node} {earlier later : List Block} {k : ℕ}

theorem after (h : target.Resuming g blocks slot earlier later n) (hn : n.After k n') :
    target.Resuming g blocks slot earlier later n' :=
  ⟨h.toReplenished.after hn, h.consistent.after hn, h.metered.of_unread hn.unread⟩

theorem of_store (h : target.Resuming g blocks slot earlier later n)
    (hn : n'.Consistent g blocks slot) (hs : n'.store = n.store) :
    target.Resuming g blocks slot earlier later n' :=
  ⟨⟨hs ▸ h.held, hs ▸ h.room⟩, hn, hs ▸ h.metered⟩

/-- The part of the next block is stored if the slot says so; otherwise it is stored, or nothing. -/
theorem put (h : target.Resuming g blocks slot earlier (b :: later) n) (hb : b ∈ blocks)
    (hfits : b.Fits) {x : Bytes} (hx : (g.encode b.data)[slot]? = some x) (t : Terms) :
    let s := callNode t slot (Node.put b.id.key b.record.encode x) n
    (s.1.outcome = .ok () → target.Resuming g blocks slot (earlier ++ [b]) later s.2) ∧
      (target.Resuming g blocks slot earlier (b :: later) s.2 ∨
        target.Resuming g blocks slot (earlier ++ [b]) later s.2) := by
  intro s
  have hconsistent : s.2.Consistent g blocks slot :=
    h.consistent.callNode (h.consistent.store.put hb hfits.ofSize hx) t slot
  have hdone (hs : s.2.store = (n.store.put b.id.key b.record.encode x).2) :
      target.Resuming g blocks slot (earlier ++ [b]) later s.2 := by
    obtain ⟨st, hput, hreplenished⟩ := h.toReplenished.put hx
    refine ⟨hreplenished _ (hs.trans (congrArg Prod.snd hput)), hconsistent, ?_⟩
    rw [hs]
    exact h.metered.put ..
  refine ⟨fun ho => hdone ?_, ?_⟩
  · obtain ⟨hvalue, hafter⟩ := ErasureVault.callNode_ok ho
    obtain ⟨-, -, -, hnode⟩ := Node.call_value hvalue
    rw [hafter, Node.put, hnode]
    rfl
  · rcases (callNode_frame t slot .put (Store.put b.id.key b.record.encode x) (fun _ a => a) n).2.2
      with hs | hs
    · exact Or.inl (h.of_store hconsistent hs)
    · exact Or.inr (hdone hs)

/-- A part that the slot holds is stored again, or not, and nothing changes. -/
theorem put_again (h : target.Resuming g blocks slot earlier later n) (hb : b ∈ blocks)
    (hfits : b.Fits) (hheld : n.HoldsPart g b slot) {x : Bytes}
    (hx : (g.encode b.data)[slot]? = some x) (t : Terms) :
    target.Resuming g blocks slot earlier later
      (callNode t slot (Node.put b.id.key b.record.encode x) n).2 := by
  have hpart : n.store.held (Text.utf8 b.id.key) = (some b.record.encode, some x) := by
    rw [show n.store.held (Text.utf8 b.id.key) = _ from hheld, Geometry.part, hx]
  have hconsistent : (callNode t slot (Node.put b.id.key b.record.encode x) n).2.Consistent g blocks
      slot := h.consistent.callNode (h.consistent.store.put hb hfits.ofSize hx) t slot
  rcases (callNode_frame t slot .put (Store.put b.id.key b.record.encode x) (fun _ a => a) n).2.2
    with hs | hs
  · exact h.of_store hconsistent hs
  · refine ⟨⟨?_, ?_⟩, hconsistent, ?_⟩
    · rw [Node.put, hs, ← h.held]
      rcases Store.put_cases b.id.key b.record.encode x n.store with ⟨e, he⟩ | ⟨st, hput, hst, -⟩
      · rw [he]
      · rw [hput, hst, ← hpart, update_eq_self]
    · rw [Node.put, hs]
      exact h.room.put_again h.metered hpart
    · rw [Node.put, hs]
      exact h.metered.put ..

end Resuming

end Node

/-! ## Repairs that are broken off -/

/-- A consistent slot holds its part of a block, or nothing in its place. -/
theorem Node.Consistent.holdsPart {n : Node} (h : n.Consistent g blocks slot)
    (hids : ∀ b ∈ blocks, ∀ b' ∈ blocks, b.id = b'.id → b = b') (hb : b ∈ blocks) :
    (n.HoldsPart g b slot ∧ b.Fits) ∨ n.store.held (Text.utf8 b.id.key) = (none, none) := by
  rcases h.store (Text.utf8 b.id.key) with hnone | ⟨b', hb', r, hr, hkey, hheld⟩
  · exact Or.inr hnone
  · obtain rfl := hids b hb b' hb' (Digest.key_injective (Text.utf8_injective hkey))
    obtain ⟨hfits, rfl⟩ := Block.ofSize_eq_ok_iff.1 hr
    exact Or.inl ⟨hheld, hfits⟩

namespace Cluster

/-- The slots hold nothing but their own parts of blocks in `blocks`. The slot `slot` lacks those of
the blocks `missing`, in the order in which the slot `source` lists their keys; it has room for them,
and its meter counts what it holds. Enough of the other slots hold theirs. -/
structure Mendable (blocks : Set Block) (source slot : ℕ) (keys : List String)
    (missing : List Block) (target : Node) (c : Cluster) : Prop where
  bound : c.Bound
  data : 2 ≤ c.geometry.data
  ids : ∀ b ∈ blocks, ∀ b' ∈ blocks, b.id = b'.id → b = b'
  consistent : ∀ i n, c.slotNode? i = some n → n.Consistent c.geometry blocks i
  lists : ∃ n, c.slotNode? source = some n ∧ Node.scanItems n.store = keys.map .ok
  node : c.slotNode? slot = some target
  room : target.store.HasRoom (c.geometry.partBytes missing)
  metered : target.store.Metered
  lacks : missing.map (fun b => b.id.key) =
    keys.filter fun key => (target.store.held (Text.utf8 key)).1.isNone
  known : ∀ b ∈ missing, b ∈ blocks
  enough : ∀ b ∈ missing, ∃ good ⊆ Finset.range c.geometry.total, c.geometry.data ≤ good.card ∧
    slot ∉ good ∧ ∀ i ∈ good, ∀ n, c.slotNode? i = some n →
      n.store.held (Text.utf8 b.id.key) ≠ (none, none)

variable {c : Cluster} {source : ℕ} {keys : List String} {missing earlier later : List Block}
  {target : Node}

/-- What is known of the nodes once the slot was given its parts of the blocks `earlier`. -/
def Partway (c : Cluster) (blocks : Set Block) (slot : ℕ) (target : Node)
    (earlier later : List Block) : ℕ → Node → Prop :=
  update (fun i n => ∃ k, c.Since k i n) slot
    (target.Resuming c.geometry blocks slot earlier later)

theorem partway_self {n : Node} : c.Partway blocks slot target earlier later slot n ↔
    target.Resuming c.geometry blocks slot earlier later n := by
  rw [Partway, update_self]

theorem partway_of_ne {i : ℕ} (hi : i ≠ slot) {n : Node} :
    c.Partway blocks slot target earlier later i n ↔ ∃ k, c.Since k i n := by
  rw [Partway, update_of_ne hi]

theorem Partway.after {i k : ℕ} {n n' : Node} (h : c.Partway blocks slot target earlier later i n)
    (hn : n.After k n') : c.Partway blocks slot target earlier later i n' := by
  by_cases hi : i = slot
  · subst hi
    exact partway_self.2 ((partway_self.1 h).after hn)
  · obtain ⟨j, h⟩ := (partway_of_ne hi).1 h
    exact (partway_of_ne hi).2 ⟨j + k, h.after hn⟩

namespace Mendable

variable (h : c.Mendable blocks source slot keys missing target)

include h in
theorem slot_lt : slot < c.geometry.total :=
  h.bound.lt_total h.node

include h in
theorem nodup : keys.Nodup := by
  obtain ⟨n, -, hlists⟩ := h.lists
  exact Node.nodup_of_scanItems hlists

include h in
theorem fits (hb : b ∈ missing) : b.Fits := by
  obtain ⟨good, hrange, hk, -, hholds⟩ := h.enough b hb
  have h2 := h.data
  obtain ⟨i, hi⟩ : good.Nonempty := Finset.card_pos.1 (by omega)
  obtain ⟨n, hn⟩ := h.bound.exists_slotNode? (Finset.mem_range.1 (hrange hi))
  exact (((h.consistent i n hn).holdsPart h.ids (h.known b hb)).resolve_right (hholds i hi n hn)).2

include h in
/-- The slots in the beginning. -/
theorem partway_start {i : ℕ} {n : Node} (hn : c.slotNode? i = some n) :
    c.Partway blocks slot target [] missing i n := by
  by_cases hi : i = slot
  · subst hi
    obtain rfl := Option.some.inj (h.node.symm.trans hn)
    exact partway_self.2 ⟨⟨rfl, h.room⟩, h.consistent _ _ hn, h.metered⟩
  · exact (partway_of_ne hi).2 ⟨0, n, hn, .refl n⟩

include h in
theorem partway_consistent {i : ℕ} {n : Node}
    (hn : c.Partway blocks slot target earlier later i n) : n.Consistent c.geometry blocks i := by
  by_cases hi : i = slot
  · subst hi
    exact (partway_self.1 hn).consistent
  · obtain ⟨k, n₀, hn₀, hafter⟩ := (partway_of_ne hi).1 hn
    exact (h.consistent i n₀ hn₀).after hafter

end Mendable

end Cluster

namespace Op.Triple

open Cluster

variable {c : Cluster} {source : ℕ} {keys done rest : List String} {key : String}
  {missing earlier later : List Block} {target : Node} {token : Token}

/-- **What the repair of a key leaves behind**, however it ends: the part of the next block was
stored, or nothing. -/
theorem repairKey_partway (h : c.Mendable blocks source slot keys missing target)
    (hkeys : keys = done ++ key :: rest)
    (howed : Owed target.store.held missing done earlier later) :
    Triple (Each c.layout (c.Partway blocks slot target earlier later))
      (Cluster.repairKey token slot key)
      (fun _ c' => ∃ earlier later, Owed target.store.held missing (done ++ [key]) earlier later ∧
        c'.Each c.layout (c.Partway blocks slot target earlier later))
      (fun _ c' => ∃ earlier later, missing = earlier ++ later ∧
        c'.Each c.layout (c.Partway blocks slot target earlier later)) := by
  have hfresh : c.geometry.replenished slot earlier target.store.held (Text.utf8 key) =
      target.store.held (Text.utf8 key) := howed.fresh (hkeys ▸ h.nodup)
  have hother {earlier' later' : List Block} {i : ℕ} (hi : i ≠ slot) {n : Node}
      (hn : c.Partway blocks slot target earlier later i n) :
      c.Partway blocks slot target earlier' later' i n :=
    (partway_of_ne hi).2 ((partway_of_ne hi).1 hn)
  cases hheld : (target.store.held (Text.utf8 key)).1 with
  | none =>
    obtain ⟨b, later, rfl, rfl⟩ := howed.next (hkeys ▸ h.lacks) hheld
    have hmem : b ∈ missing := howed.split ▸ List.mem_append_right _ List.mem_cons_self
    have hb := h.known b hmem
    refine (repairKey_of_consistent (I := c.Partway blocks slot target earlier (b :: later))
      (W := fun o n => (o = .ok () → target.Resuming c.geometry blocks slot (earlier ++ [b]) later n) ∧
        (target.Resuming c.geometry blocks slot earlier (b :: later) n ∨
          target.Resuming c.geometry blocks slot (earlier ++ [b]) later n)) h.ids h.slot_lt
      (fun i n => h.partway_consistent) (fun i k n n' => Partway.after) ?_).conseq
      (fun _ hc' => hc') (fun written c' hc' => ?_) fun e c' hc' => ?_
    · intro b' hb' hkey r x hr hx start n hn
      obtain rfl := h.ids b' hb' b hb (Digest.key_injective hkey)
      obtain rfl := (Block.ofSize_eq_ok_iff.1 hr).2
      exact (partway_self.1 hn).put hb (h.fits hmem) hx _
    · rcases hc' with ⟨-, hc'⟩ | hc'
      · obtain ⟨n, hsome, hn⟩ := hc'.exists_of_update h.slot_lt
        rw [(partway_self.1 hn).held, hfresh, hheld] at hsome
        simp at hsome
      · exact ⟨_, _, howed.repaired hheld, hc'.of_update (fun i hi n hn => hother hi hn)
          fun n hn => partway_self.2 (hn.1 rfl)⟩
    · rcases hc' with hc' | ⟨e', hc'⟩
      · exact ⟨_, _, howed.split, hc'⟩
      · rcases (hc'.update_mono fun n hn => hn.2).update_or with hc' | hc'
        · exact ⟨_, _, howed.split, hc'.of_update (fun i hi n hn => hother hi hn)
            fun n hn => partway_self.2 hn⟩
        · exact ⟨_, _, (howed.repaired hheld).split, hc'.of_update (fun i hi n hn => hother hi hn)
            fun n hn => partway_self.2 hn⟩
  | some record =>
    refine (repairKey_of_consistent (I := c.Partway blocks slot target earlier later)
      (W := fun _ => target.Resuming c.geometry blocks slot earlier later) h.ids h.slot_lt
      (fun i n => h.partway_consistent) (fun i k n n' => Partway.after) ?_).conseq
      (fun _ hc => hc) (fun written c' hc' => ⟨_, _, howed.skipped hheld, ?_⟩)
      fun e c' hc' => ⟨_, _, howed.split, ?_⟩
    · rintro b hb rfl r x hr hx start n hn
      obtain ⟨hfits, rfl⟩ := Block.ofSize_eq_ok_iff.1 hr
      have hn := partway_self.1 hn
      refine hn.put_again hb hfits ((hn.consistent.holdsPart h.ids hb).resolve_right ?_).1 hx _
      rw [hn.held, hfresh]
      exact fun hnone => by simp [hnone] at hheld
    · rcases hc' with ⟨-, hc'⟩ | hc'
      · exact hc'.of_update (fun _ _ _ hn => hn) fun n hn => hn.2
      · exact hc'.of_update (fun _ _ _ hn => hn) fun n hn => partway_self.2 hn
    · rcases hc' with hc' | ⟨e', hc'⟩
      · exact hc'
      · exact hc'.of_update (fun _ _ _ hn => hn) fun n hn => partway_self.2 hn

/-- **What a repair leaves behind, however it ends**: the slot was given its parts of the first of the
blocks that it lacked, and nothing else changed. -/
theorem repair_mendable (h : c.Mendable blocks source slot keys missing target) (token : Token) :
    Triple (· = c) (Cluster.repair token source slot)
      (fun _ c' => ∃ earlier later, missing = earlier ++ later ∧
        c'.Each c.layout (c.Partway blocks slot target earlier later))
      (fun _ c' => ∃ earlier later, missing = earlier ++ later ∧
        c'.Each c.layout (c.Partway blocks slot target earlier later)) := by
  obtain ⟨sourceNode, hsource, hitems⟩ := h.lists
  refine (repair_of_steps
    (E := fun _ c' => ∃ earlier later, missing = earlier ++ later ∧
      c'.Each c.layout (c.Partway blocks slot target earlier later))
    (fun _ e c' hc' => ?_) (fun _ _ n hn => ?_) (fun r c' j hc' => ?_) fun e c' j hc' => ?_).each
    h.bound.each_self
  · exact ⟨[], missing, rfl, hc'.mono fun i n hn => h.partway_start hn⟩
  · obtain rfl : sourceNode = n := Option.some.inj (hsource.symm.trans hn)
    refine (repairKeys_of_steps (I := fun done _ c' => ∃ earlier later,
        Owed target.store.held missing done earlier later ∧
        c'.Each c.layout (c.Partway blocks slot target earlier later))
      (fun done key rest r hdone => of_each fun c₁ hc₁ => ?_) (fun e done rest _ r c' hc' => ?_)
      (fun _ done r c' hc' => ?_) fun done r c' j hc' => ?_).conseq (fun c' hc' => ?_)
      (fun r c' hc' => ?_) fun _ _ hc' => hc'
    · obtain ⟨rest', hkeys⟩ := Node.keys_of_scan hitems hdone
      obtain ⟨earlier, later, howed, hc₁⟩ := hc₁
      exact (repairKey_partway h hkeys howed).each hc₁
    · obtain ⟨earlier, later, howed, hc'⟩ := hc'
      exact ⟨earlier, later, howed.split, hc'⟩
    · obtain ⟨earlier, later, howed, hc'⟩ := hc'
      exact ⟨earlier, later, howed.split, hc'⟩
    · obtain ⟨earlier, later, howed, hc'⟩ := hc'
      exact ⟨earlier, later, howed, hc'.journal j⟩
    · refine ⟨[], missing, ⟨rfl, rfl⟩, hc'.of_update (fun i _ n hn => h.partway_start hn) ?_⟩
      rintro _ rfl
      exact (h.partway_start hsource).after sourceNode.after_tick
    · obtain ⟨done, -, earlier, later, howed, hc'⟩ := hc'
      exact ⟨earlier, later, howed.split, hc'⟩
  · obtain ⟨earlier, later, hsplit, hc'⟩ := hc'
    exact ⟨earlier, later, hsplit, hc'.journal j⟩
  · obtain ⟨earlier, later, hsplit, hc'⟩ := hc'
    exact ⟨earlier, later, hsplit, hc'.journal j⟩

end Op.Triple

/-! ## What is left to repair -/

/-- The blocks that a slot still lacks, once it was given its parts of the first of them. -/
theorem Geometry.lacks_replenished {held : Bytes → Option Bytes × Option Bytes} {keys : List String}
    {earlier later : List Block} (hnodup : keys.Nodup)
    (hlacks : (earlier ++ later).map (fun b => b.id.key) =
      keys.filter fun key => (held (Text.utf8 key)).1.isNone) :
    later.map (fun b => b.id.key) =
      keys.filter fun key => (g.replenished slot earlier held (Text.utf8 key)).1.isNone := by
  rw [List.map_append] at hlacks
  set done := earlier.map fun b => b.id.key
  have hdistinct : (done ++ later.map fun b => b.id.key).Nodup := hlacks ▸ hnodup.filter _
  have hlack (key : String) : (g.replenished slot earlier held (Text.utf8 key)).1.isNone =
      (decide (key ∉ done) && (held (Text.utf8 key)).1.isNone) := by
    by_cases hkey : key ∈ done
    · obtain ⟨b, hb, rfl⟩ := List.mem_map.1 hkey
      rw [Geometry.replenished_of_mem (List.nodup_append.1 hdistinct).1 hb]
      simp [Geometry.part, hkey]
    · have hne : ∀ b ∈ earlier, Text.utf8 key ≠ Text.utf8 b.id.key := fun b hb h =>
        hkey (List.mem_map.2 ⟨b, hb, (Text.utf8_injective h).symm⟩)
      simp [Geometry.replenished_of_ne hne, hkey]
  calc later.map (fun b => b.id.key)
      = (done ++ later.map fun b => b.id.key).filter fun key => decide (key ∉ done) := by
        rw [List.filter_append, List.filter_eq_nil_iff.2 (by simp), List.nil_append,
          List.filter_eq_self.2]
        intro key hkey
        exact decide_eq_true fun hdone => (List.nodup_append.1 hdistinct).2.2 _ hdone _ hkey rfl
    _ = keys.filter fun key => (g.replenished slot earlier held (Text.utf8 key)).1.isNone := by
        rw [hlacks, List.filter_filter]
        exact List.filter_congr fun key _ => (hlack key).symm

namespace Cluster

variable {c c' : Cluster} {source : ℕ} {keys : List String} {missing earlier later : List Block}
  {target n : Node}

namespace Mendable

variable (h : c.Mendable blocks source slot keys missing target)

include h in
/-- A slot that is repaired with its own keys lacks nothing. -/
theorem eq_nil_of_self (hself : source = slot) : missing = [] := by
  obtain ⟨n, hn, hlists⟩ := h.lists
  obtain rfl : target = n := Option.some.inj (h.node.symm.trans (hself ▸ hn))
  have hnone : (keys.filter fun key => (target.store.held (Text.utf8 key)).1.isNone) = [] := by
    refine List.filter_eq_nil_iff.2 fun key hkey => ?_
    have hsome := ((Node.scanItems_ok hlists).2 _).1 (List.mem_map_of_mem hkey)
    simpa [Option.isSome_iff_ne_none] using hsome
  exact List.map_eq_nil_iff.1 (h.lacks.trans hnone)

include h in
/-- **What is left can be repaired still.** -/
theorem resume (hsplit : missing = earlier ++ later)
    (hc' : c'.Each c.layout (c.Partway blocks slot target earlier later))
    (hn : c'.slotNode? slot = some n) : c'.Mendable blocks source slot keys later n := by
  have hg : c'.geometry = c.geometry := hc'.geometry
  have hresuming : target.Resuming c.geometry blocks slot earlier later n :=
    partway_self.1 (hc'.nodes slot n hn)
  refine ⟨hc'.bound, hg ▸ h.data, h.ids, fun i n' hn' => ?_, ?_, hn, hg ▸ hresuming.room,
    hresuming.metered, ?_, fun b hb => h.known b (hsplit ▸ List.mem_append_right _ hb),
    fun b hb => ?_⟩
  · exact hg ▸ h.partway_consistent (hc'.nodes i n' hn')
  · obtain ⟨sourceNode, hsource, hlists⟩ := h.lists
    by_cases hself : source = slot
    · obtain rfl : earlier = [] :=
        (List.append_eq_nil_iff.1 (hsplit ▸ h.eq_nil_of_self hself)).1
      obtain rfl : target = sourceNode := Option.some.inj (h.node.symm.trans (hself ▸ hsource))
      refine ⟨n, hself ▸ hn, Node.scanItems_of_held hresuming.held ?_ hlists⟩
      intro hoffline
      have hroom := hresuming.room
      rwa [hoffline] at hroom
    · obtain ⟨n', hn', hpartway⟩ := hc'.exists_node (h.bound.lt_total hsource)
      obtain ⟨k, n₀, hn₀, hafter⟩ := (partway_of_ne hself).1 hpartway
      obtain rfl := Option.some.inj (hsource.symm.trans hn₀)
      exact ⟨n', hn', (Node.scanItems_of_unread hafter.unread).trans hlists⟩
  · rw [hresuming.held]
    exact Geometry.lacks_replenished h.nodup (hsplit ▸ h.lacks)
  · obtain ⟨good, hrange, hk, hgood, hholds⟩ :=
      h.enough b (hsplit ▸ List.mem_append_right _ hb)
    refine ⟨good, hg ▸ hrange, hg ▸ hk, hgood, fun i hi n' hn' => ?_⟩
    have hne : i ≠ slot := fun hself => hgood (hself ▸ hi)
    obtain ⟨k, n₀, hn₀, hafter⟩ := (partway_of_ne hne).1 (hc'.nodes i n' hn')
    rw [hafter.held]
    exact hholds i hi n₀ hn₀

end Mendable

/-! ## Without faults -/

/-- The nodes of the slots are calm. -/
def Calm (c : Cluster) : Prop :=
  ∀ i n, c.slotNode? i = some n → n.weather = fun _ _ => .calm

/-- The cluster with the faults of all nodes cleared. -/
def heal (c : Cluster) : Cluster :=
  { c with nodes := c.nodes.map fun n => n.withFault none }

theorem Bound.slotNode?_heal (hc : c.Bound) (i : ℕ) :
    c.heal.slotNode? i = (c.slotNode? i).map fun n => n.withFault none := by
  rw [slotNode?, slotNode?, Option.map_map]
  refine Option.map_congr fun b hb => ?_
  have hlt := hc.node_lt b (List.mem_of_getElem? hb)
  simp [heal, node, List.getD_eq_getElem?_getD, hlt]

theorem Bound.heal (hc : c.Bound) : c.heal.Bound where
  length_eq := hc.length_eq
  nodup := hc.nodup
  node_lt b hb := by
    rw [Cluster.heal, List.length_map]
    exact hc.node_lt b hb

theorem Bound.calm_heal (hc : c.Bound) : c.heal.Calm := by
  intro i n hn
  rw [hc.slotNode?_heal, Option.map_eq_some_iff] at hn
  obtain ⟨n, -, rfl⟩ := hn
  rfl

/-- What the node of a slot stores, up to its count of reads. -/
def stored (c : Cluster) (i : ℕ) : Option Store :=
  (c.slotNode? i).map fun n => n.store.unread

/-- What the node of a slot holds under each key. -/
def contents (c : Cluster) (i : ℕ) : Option (Bytes → Option Bytes × Option Bytes) :=
  (c.slotNode? i).map fun n => n.store.held

theorem contents_of_node (hn : c.slotNode? slot = some n) : c.contents slot = some n.store.held := by
  rw [contents, hn]
  rfl

theorem Each.stored_eq {I : ℕ → Node → Prop} (hc' : c'.Each c.layout I) (hc : c.Bound) {i : ℕ}
    (h : ∀ n', I i n' → ∃ n, c.slotNode? i = some n ∧ n'.store.unread = n.store.unread) :
    c'.stored i = c.stored i := by
  by_cases hi : i < c.geometry.total
  · obtain ⟨n', hn', hI⟩ := hc'.exists_node hi
    obtain ⟨n, hn, hunread⟩ := h n' hI
    simp [stored, hn, hn', hunread]
  · have hnone {c : Cluster} (hc : c.Bound) (hi : ¬ i < c.geometry.total) : c.slotNode? i = none := by
      rwa [← hc.isSome_slotNode?, Option.not_isSome_iff_eq_none] at hi
    simp [stored, hnone hc hi, hnone hc'.bound (hc'.geometry.symm ▸ hi)]

theorem Bound.stored_heal (hc : c.Bound) (i : ℕ) : c.heal.stored i = c.stored i := by
  rw [stored, hc.slotNode?_heal, Option.map_map]
  rfl

namespace Mendable

variable (h : c.Mendable blocks source slot keys missing target)

include h in
theorem heal : c.heal.Mendable blocks source slot keys missing (target.withFault none) := by
  have hnode {i : ℕ} {n : Node} (hn : c.heal.slotNode? i = some n) :
      ∃ n₀, c.slotNode? i = some n₀ ∧ n₀.withFault none = n := by
    rwa [h.bound.slotNode?_heal, Option.map_eq_some_iff] at hn
  refine ⟨h.bound.heal, h.data, h.ids, fun i n hn => ?_, ?_, ?_, h.room, h.metered, h.lacks, h.known,
    fun b hb => ?_⟩
  · obtain ⟨n₀, hn₀, rfl⟩ := hnode hn
    exact ⟨fun _ _ _ => Effect.noConfusion, (h.consistent i n₀ hn₀).store⟩
  · obtain ⟨n, hn, hlists⟩ := h.lists
    exact ⟨n.withFault none, by rw [h.bound.slotNode?_heal, hn]; rfl, hlists⟩
  · rw [h.bound.slotNode?_heal, h.node]
    rfl
  · obtain ⟨good, hrange, hk, hgood, hholds⟩ := h.enough b hb
    refine ⟨good, hrange, hk, hgood, fun i hi n hn => ?_⟩
    obtain ⟨n₀, hn₀, rfl⟩ := hnode hn
    exact hholds i hi n₀ hn₀

include h in
/-- **Without faults all that is left is repaired.** -/
theorem owing (hcalm : c.Calm) : c.Owing source slot keys missing target := by
  have hpass {i : ℕ} {n : Node} (hn : c.slotNode? i = some n) (t : ℕ) (m : Method) :
      (n.weather t m).Passes c.limit := by
    rw [hcalm i n hn]
    exact Disturbance.calm_passes c.limit
  refine ⟨h.bound, h.data, h.node, ?_, fun t _ m => hpass h.node t m, h.room, h.lacks,
    fun b hb => h.fits hb, fun earlier b later hsplit => ?_⟩
  · obtain ⟨n, hn, hlists⟩ := h.lists
    exact ⟨n, hn, (Node.scan_of_pass (hpass hn _ _).1).trans hlists⟩
  · have hb : b ∈ missing := hsplit ▸ List.mem_append_right _ List.mem_cons_self
    obtain ⟨good, hrange, hk, hgood, hholds⟩ := h.enough b hb
    have hpart {i : ℕ} {n : Node} (hn : c.slotNode? i = some n) :=
      (h.consistent i n hn).holdsPart h.ids (h.known b hb)
    refine ⟨good, hrange, hk, hgood, fun i _ => ?_⟩
    refine .of_honest h.bound (h.fits hb) (fun n hn => (h.consistent i n hn).honest)
      (fun n hn => (hpart hn).imp_left And.left) (fun hi n hn => ⟨?_, fun t _ m => hpass hn t m⟩) _
    exact ((hpart hn).resolve_right (hholds i hi n hn)).1

include h in
/-- What a repair does that may be broken off, and that what is left can be repaired still. -/
theorem breakOff (token : Token) :
    let after := ((Cluster.repair token source slot).run c).2.2
    ∃ earlier later n, missing = earlier ++ later ∧
      after.Mendable blocks source slot keys later n ∧
      n.store.held = c.geometry.replenished slot earlier target.store.held ∧
      after.layout = c.layout ∧ ∀ i ≠ slot, after.stored i = c.stored i := by
  intro after
  obtain ⟨earlier, later, hsplit, hafter⟩ := (Op.Triple.repair_mendable h token).run_cluster rfl
  obtain ⟨n, hn, hself⟩ := hafter.exists_node h.slot_lt
  refine ⟨earlier, later, n, hsplit, h.resume hsplit hafter hn, (partway_self.1 hself).held,
    hafter.layout, fun i hi => hafter.stored_eq h.bound fun n' hn' => ?_⟩
  obtain ⟨k, n₀, hn₀, hsince⟩ := (partway_of_ne hi).1 hn'
  exact ⟨n₀, hn₀, hsince.unread⟩

include h in
/-- What a repair without faults does, and that nothing is left to repair then. -/
theorem mend (hcalm : c.Calm) :
    let run := (Cluster.repair .never source slot).run c
    run.1 = .ok ⟨keys.length, missing.length, keys.length - missing.length,
      (missing.map fun b => c.geometry.shardLength b.size).sum⟩ ∧
    run.2.2.Calm ∧
    (∃ n, run.2.2.Mendable blocks source slot keys [] n ∧
      n.store.held = c.geometry.replenished slot missing target.store.held) ∧
    ∀ i, (i ≠ slot ∨ missing = []) → run.2.2.stored i = c.stored i := by
  intro run
  obtain ⟨r, hrun, rfl, hstage⟩ := (Op.Triple.repair_owing (h.owing hcalm)).exists_ok rfl
  obtain ⟨earlier, later, n, hsplit, hrest, -⟩ := h.breakOff .never
  have hrestoring := stage_self.1 (hstage.nodes slot n hrest.node)
  -- what the slot holds says that nothing is left
  obtain rfl : later = [] := by
    have hlacks : [].map (fun b : Block => b.id.key) = keys.filter fun key =>
        (c.geometry.replenished slot missing target.store.held (Text.utf8 key)).1.isNone :=
      Geometry.lacks_replenished h.nodup ((List.append_nil missing).symm ▸ h.lacks)
    rw [← hrestoring.held, ← hrest.lacks] at hlacks
    exact List.map_eq_nil_iff.1 hlacks.symm
  refine ⟨?_, fun i n' hn' => ?_, ⟨n, hrest, hrestoring.held⟩, fun i hi => ?_⟩
  · have hlength := length_eq_add_countP h.lacks
    rw [hrun, Geometry.report, hlength, Nat.add_sub_cancel_left]
  · by_cases hi : i = slot
    · subst hi
      rw [(stage_self.1 (hstage.nodes i n' hn')).weather, hcalm i target h.node]
    · obtain ⟨n₀, hn₀, hafter⟩ := (stage_of_ne hi).1 (hstage.nodes i n' hn')
      rw [hafter.weather, hcalm i n₀ hn₀]
  · refine hstage.stored_eq h.bound fun n' hn' => ?_
    by_cases hself : i = slot
    · subst hself
      exact ⟨target, h.node, (stage_self.1 hn').untouched (hi.resolve_left fun hne => hne rfl)⟩
    · obtain ⟨n₀, hn₀, hafter⟩ := (stage_of_ne hself).1 hn'
      exact ⟨n₀, hn₀, hafter.unread⟩

end Mendable

/-- **A repair that was broken off and is begun again does what a single one does.** Whatever failed,
the first has given the slot its parts of the first of the blocks that it lacked, in the order of
the scan, and touched nothing else. Once the faults are cleared, another repair gives it those of
the others, so that it holds what a single repair without faults gives it; one more has nothing
to do, and changes no store. -/
theorem retry_of_mendable (h : c.Mendable blocks source slot keys missing target) (token : Token) :
    let shards := fun blocks : List Block => (blocks.map fun b => c.geometry.shardLength b.size).sum
    let first := ((Cluster.repair token source slot).run c).2.2
    let retry := (Cluster.repair .never source slot).run first.heal
    let clean := (Cluster.repair .never source slot).run c.heal
    let again := (Cluster.repair .never source slot).run retry.2.2
    ∃ earlier later, missing = earlier ++ later ∧
      first.contents slot = some (c.geometry.replenished slot earlier target.store.held) ∧
      (∀ i ≠ slot, first.stored i = c.stored i ∧ retry.2.2.stored i = c.stored i) ∧
      retry.1 = .ok ⟨keys.length, later.length, keys.length - later.length, shards later⟩ ∧
      clean.1 = .ok ⟨keys.length, missing.length, keys.length - missing.length, shards missing⟩ ∧
      retry.2.2.contents slot =
        some (c.geometry.replenished slot missing target.store.held) ∧
      clean.2.2.contents slot = retry.2.2.contents slot ∧
      again.1 = .ok ⟨keys.length, 0, keys.length, 0⟩ ∧
      ∀ i, again.2.2.stored i = retry.2.2.stored i := by
  intro shards first retry clean again
  obtain ⟨earlier, later, n, hsplit, hfirst, hheld, hlayout, hfirst_others⟩ := h.breakOff token
  replace hfirst : first.Mendable blocks source slot keys later n := hfirst
  obtain ⟨hretry, hcalm, ⟨n', hdone, hheld'⟩, hothers⟩ :=
    hfirst.heal.mend hfirst.bound.calm_heal
  obtain ⟨hclean, -, ⟨n'', hdone', hheld''⟩, -⟩ := h.heal.mend h.bound.calm_heal
  replace hdone : retry.2.2.Mendable blocks source slot keys [] n' := hdone
  obtain ⟨hagain, -, -, hsame⟩ := hdone.mend hcalm
  have hg : first.heal.geometry = c.geometry := congrArg Layout.geometry hlayout
  have hcontents : retry.2.2.contents slot =
      some (c.geometry.replenished slot missing target.store.held) := by
    rw [contents_of_node hdone.node, hheld', hg, hsplit, Geometry.replenished_append, ← hheld]
    rfl
  refine ⟨earlier, later, hsplit, ?_, fun i hi => ⟨hfirst_others i hi, ?_⟩, ?_, hclean, hcontents,
    ?_, ?_, fun i => hsame i (Or.inr rfl)⟩
  · rw [contents_of_node hfirst.node, hheld]
  · calc retry.2.2.stored i
        = first.heal.stored i := hothers i (Or.inl hi)
      _ = first.stored i := hfirst.bound.stored_heal i
      _ = c.stored i := hfirst_others i hi
  · rw [hretry, hg]
  · rw [hcontents, contents_of_node hdone'.node, hheld'']
    rfl
  · rw [hagain]
    rfl

/-- A repair that fails as the third slot refuses its shard, and is begun again. -/
theorem retry_of_refusedShard :
    let b : Block := ⟨.blake3, [1, 2, 3]⟩
    let c := (emptyThird b.id.key).modifyNode 2 fun n => n.withFault (some ⟨.refused, 0, some [.put]⟩)
    let first := (Cluster.repair .never 0 2).run c
    let retry := (Cluster.repair .never 0 2).run first.2.2.heal
    let again := (Cluster.repair .never 0 2).run retry.2.2
    c.Mendable {b} 0 2 [b.id.key] [b] (c.node 2) ∧
      first.1 = .error (.transport "connection refused") ∧ again.1 = .ok ⟨1, 0, 1, 0⟩ := by
  intro b c
  have hpart : ∀ i n, i < 2 → c.slotNode? i = some n → ∃ shard,
      n = holding b.id.key [3, 0, 0, 0] shard ∧ n.HoldsPart c.geometry b i := by
    intro i n hi hn
    match i with
    | 0 | 1 =>
      obtain rfl := Option.some.inj hn
      refine ⟨_, rfl, (held_holding ..).trans ?_⟩
      decide +kernel
    | i + 2 => omega
  have hconsistent (i : ℕ) (n : Node) (hn : c.slotNode? i = some n) :
      n.Consistent c.geometry {b} i := by
    match i with
    | 0 | 1 =>
      obtain ⟨shard, rfl, hheld⟩ := hpart _ n (by decide) hn
      refine ⟨fun _ _ _ => Effect.noConfusion, fun k => ?_⟩
      by_cases hk : k = Text.utf8 b.id.key
      · exact Or.inr ⟨b, rfl, b.record, by decide, hk, hk ▸ hheld⟩
      · exact Or.inl (held_holding_of_ne hk)
    | 2 =>
      obtain rfl := Option.some.inj hn
      refine ⟨fun t m b => ?_, fun k => Or.inl rfl⟩
      cases m <;> exact Effect.noConfusion
    | i + 3 => simp [c, Cluster.slotNode?, emptyThird, modifyNode] at hn
  have hmendable : c.Mendable {b} 0 2 [b.id.key] [b] (c.node 2) := by
    refine ⟨⟨rfl, by decide, by decide⟩, by decide, ?_, hconsistent, ⟨_, rfl, scan_holding ..⟩, rfl,
      Or.inr (by decide), rfl, rfl, ?_, ?_⟩
    · rintro b' rfl b'' rfl -
      rfl
    · rintro b' hb'
      exact List.mem_singleton.1 hb'
    · rintro b' hb'
      obtain rfl := List.mem_singleton.1 hb'
      refine ⟨Finset.range 2, by decide, by decide, by decide, fun i hi n hn => ?_⟩
      obtain ⟨shard, -, hheld⟩ := hpart i n (Finset.mem_range.1 hi) hn
      rw [show n.store.held _ = _ from hheld]
      simp [Geometry.part]
  obtain ⟨earlier, later, -, -, -, -, -, -, -, hagain, -⟩ := retry_of_mendable hmendable .never
  exact ⟨hmendable, by decide +kernel, hagain⟩

end Cluster

end ErasureVault
