/-
  Runs: what the slots hold after any sequence of writes, removals, repairs and replacements.

  * Repairs keep a cluster consistent: what they rebuild from the other slots is the shard that the
    slot would hold if it had been there when the block was written (`repairKey_of_consistent`,
    `repair_consistent`);
  * `Command` lists what a caller can do, and `Command.runAll` does it. After every run, whatever
    failed on the way, each slot holds nothing but its own parts of the blocks that were written,
    and no other block is ever read (`consistent_of_run`).
-/
import ErasureVault.Proofs.Repairs

namespace ErasureVault

open Function Stripe

variable {g : Geometry} {slots : List Binding} {blocks : Set Block} {token : Token}

/-! ## Repairs -/

/-- What consistent slots give for a block are its own shards. -/
theorem Gathered.of_consistent {key : String} {id : Digest} {size : ℕ} {s : Stripe}
    (hids : ∀ b ∈ blocks, ∀ b' ∈ blocks, b.id = b'.id → b = b')
    (hs : Gathered g token
      (fun _ a => ∀ r, a = .ok r → ∃ b ∈ blocks, b.id.key = key ∧ b.size = r.size)
      (fun i a => ∀ x, a = .ok x →
        x = [] ∨ ∃ b ∈ blocks, b.id.key = key ∧ (g.encode b.data)[i]? = some x) id size s)
    (hkey : key = id.key) : ∃ b ∈ blocks, b.id = id ∧ b.size = size ∧ s.Of g b := by
  obtain ⟨i, r, hr, hsize⟩ := hs.agreed.exists_record
  obtain ⟨b, hb, hid, hbsize⟩ := hr r rfl
  obtain rfl := hsize.symm.trans hbsize.symm
  refine ⟨b, hb, Digest.key_injective (hid.trans hkey), rfl, .of_collected ?_⟩
  refine hs.collected.mono fun _ i a ha x hx => (ha x hx).imp_right ?_
  rintro ⟨b', hb', hid', hx⟩
  exact hids b' hb' b hb (Digest.key_injective (hid'.trans hid.symm)) ▸ hx

section
variable {l : Layout} {slot : ℕ} {key : String} {I : ℕ → Node → Prop} {W : Outcome Unit → Node → Prop}
  (hids : ∀ b ∈ blocks, ∀ b' ∈ blocks, b.id = b'.id → b = b') (hslot : slot < l.geometry.total)
  (hconsistent : ∀ i n, I i n → n.Consistent l.geometry blocks i)
  (hafter : ∀ i k n n', I i n → n.After k n' → I i n')
  (hwrite : ∀ b ∈ blocks, b.id.key = key → ∀ r x, SizeRecord.ofSize b.size = .ok r →
    (l.geometry.encode b.data)[slot]? = some x → ∀ start n, I slot n →
    let s := callNode ⟨"put", token, l.limit, start⟩ slot (Node.put key r.encode x) n
    W s.1.outcome s.2)

/-- What is known of consistent slots while a key is repaired. -/
def Repairing.ofConsistent : Repairing l token slot key where
  before := I
  probed o n := (∀ x, o = .ok x → (n.store.held (Text.utf8 key)).1 = some x) ∧ I slot n
  record _ a := ∀ r, a = .ok r → ∃ b ∈ blocks, b.id.key = key ∧ b.size = r.size
  sized := I
  shard i a := ∀ x, a = .ok x →
    x = [] ∨ ∃ b ∈ blocks, b.id.key = key ∧ (l.geometry.encode b.data)[i]? = some x
  fetched := I
  stored := W
  probe start n hn := by
    have hread := Node.after_getRecord ⟨"get_meta", token, l.limit, start⟩ slot key n
    refine ⟨fun x hx => ?_, hafter slot 1 n _ hn hread⟩
    rw [hread.held]
    exact Node.storedRecord_ok ((hconsistent slot n hn).honest.callNode_ok hx)
  size e start i n _ hn := by
    have hn : I i n := by
      by_cases hi : i = slot
      · subst hi
        rw [update_self] at hn
        exact hn.2
      · rwa [update_of_ne hi] at hn
    exact ⟨hafter i 1 n _ hn (Node.after_getSize _ i key n),
      fun r hr => (hconsistent i n hn).of_getSize hr⟩
  fetch start i n _ hn := ⟨hafter i 1 n _ hn (Node.after_getUnless _ i key _ n),
    fun x hx => (hconsistent i n hn).of_getUnless hx⟩
  put id size s x r hkey hs hx hr start n hn := by
    have hI : I slot n := by
      split at hn <;> exact hn
    obtain ⟨b, hb, rfl, rfl, hof⟩ := hs.of_consistent hids hkey
    exact hwrite b hb hkey.symm r x hr (hof.owedShard_ok hslot hx) start n hI

include hids hslot hconsistent hafter hwrite in
/-- **What the repair of a key does to consistent slots**: one of them is written, or none. -/
theorem Op.Triple.repairKey_of_consistent :
    Triple (Cluster.Each l I) (Cluster.repairKey token slot key)
      (fun written c =>
        (written = none ∧ c.Each l (update I slot fun n =>
          ((n.store.held (Text.utf8 key)).1).isSome ∧ I slot n)) ∨
        c.Each l (update I slot (W (.ok ()))))
      fun _ c => c.Each l I ∨ ∃ e, c.Each l (update I slot (W (.error e))) := by
  set p := Repairing.ofConsistent hids hslot hconsistent hafter hwrite
  have hread (size : ℕ) : p.read size = I := ite_self _
  refine (repairKey_steps p hslot).conseq (fun _ hc => hc) (fun written c hc => ?_) fun e c hc => ?_
  · cases hc with
    | skipped record hc =>
      exact Or.inl ⟨rfl, hc.update_mono fun n hn => ⟨by rw [hn.1 record rfl]; rfl, hn.2⟩⟩
    | written id size s x r hkey hs hx hr hc => exact Or.inr (hread size ▸ hc)
  · cases hc with
    | unasked e' he hc => exact Or.inl (hc.of_update (fun _ _ _ hn => hn) fun _ hn => hn.2)
    | unsized id hkey h hc => exact Or.inl hc
    | givenUp h hc => exact Or.inl hc
    | unfound id size s hkey hs h hc => exact Or.inl (hread size ▸ hc)
    | unstored id size s x r hkey hs hx hr hc => exact Or.inr ⟨e, hread size ▸ hc⟩

end

namespace Op.Triple

variable (hids : ∀ b ∈ blocks, ∀ b' ∈ blocks, b.id = b'.id → b = b')

include hids in
/-- **What a repair writes is the shard of the slot.** -/
theorem repair_consistent (source slot : ℕ) :
    Preserves (Cluster.Consistent g slots blocks) (Cluster.repair token source slot) := by
  refine of_consistent fun limit => (repair_preserves source
    (fun i n hn => hn.after n.after_tick) fun hslot key => ?_).conseq (fun _ hc => hc)
    (fun _ _ hc => hc.consistent) fun _ _ hc => hc.consistent
  refine (repairKey_of_consistent (W := fun _ n => n.Consistent g blocks slot) hids hslot
    (fun _ _ hn => hn) (fun i k n n' hn hafter => hn.after hafter) ?_).conseq
    (fun _ hc => hc) (fun written c hc => ?_) fun e c hc => ?_
  · rintro b hb rfl r x hr hx start n hn
    exact hn.callNode (hn.store.put hb hr hx) _ slot
  · rcases hc with ⟨-, hc⟩ | hc
    · exact hc.of_update (fun _ _ _ hn => hn) fun _ hn => hn.2
    · exact hc.of_update (fun _ _ _ hn => hn) fun _ hn => hn
  · rcases hc with hc | ⟨e', hc⟩
    · exact hc
    · exact hc.of_update (fun _ _ _ hn => hn) fun _ hn => hn

end Op.Triple

/-! ## Replacements -/

/-- The node is honest, and holds nothing. -/
structure Node.Fresh (n : Node) : Prop where
  honest : n.Honest
  held : ∀ k, n.store.held k = (none, none)

theorem Node.Fresh.consistent {n : Node} (h : n.Fresh) (i : ℕ) : n.Consistent g blocks i :=
  ⟨h.honest, fun k => Or.inl (h.held k)⟩

namespace Cluster.Consistent

variable {c : Cluster}

/-- Another node changes nothing, as no slot is bound to it. -/
theorem addNode (h : c.Consistent g slots blocks) (n : Node) :
    (c.addNode n).2.Consistent g slots blocks where
  geometry := h.geometry
  slots := h.slots
  bound := {
    length_eq := h.bound.length_eq
    nodup := h.bound.nodup
    node_lt := fun b hb => by
      have := h.bound.node_lt b hb
      simp only [Cluster.addNode, List.length_append, List.length_singleton]
      omega }
  nodes i n' hn' := by
    obtain ⟨b, hb, rfl⟩ := slotNode?_eq_some_iff.1 hn'
    have hlt := h.bound.node_lt b (List.mem_of_getElem? hb)
    have hsame : (c.addNode n).2.node b.node = c.node b.node := by
      simp only [node, Cluster.addNode, List.getD_eq_getElem?_getD, List.getElem?_append_left hlt]
    rw [hsame]
    exact h.nodes i _ (slotNode?_eq_some_iff.2 ⟨b, hb, rfl⟩)

theorem rebind (h : c.Consistent g slots blocks) {new : Binding} (slot : ℕ)
    (hlt : new.node < c.nodes.length) (hnew : new.node ∉ slots.map Binding.node)
    (hfresh : (c.node new.node).Fresh) :
    Cluster.Consistent g (slots.set slot new) blocks { c with slots := slots.set slot new } where
  geometry := h.geometry
  slots := rfl
  bound := {
    length_eq := by
      rw [List.length_set, ← h.slots]
      exact h.bound.length_eq
    nodup := by
      rw [List.map_set]
      exact (h.slots ▸ h.bound.nodup).set hnew
    node_lt := fun b hb => by
      rcases List.mem_or_eq_of_mem_set hb with hb | rfl
      · exact h.bound.node_lt b (h.slots ▸ hb)
      · exact hlt }
  nodes i n hn := by
    obtain ⟨b, hb, rfl⟩ := slotNode?_eq_some_iff.1 hn
    rw [List.getElem?_set] at hb
    split at hb
    · split at hb
      · obtain rfl := Option.some.inj hb
        exact hfresh.consistent i
      · simp at hb
    · exact h.nodes i _ (slotNode?_eq_some_iff.2 ⟨b, h.slots ▸ hb, rfl⟩)

end Cluster.Consistent

namespace Op.Triple

variable (hids : ∀ b ∈ blocks, ∀ b' ∈ blocks, b.id = b'.id → b = b')

include hids in
theorem replace_consistent (source slot : ℕ) (new : Binding) :
    Triple
      (fun c => c.Consistent g slots blocks ∧ new.node < c.nodes.length ∧
        new.node ∉ slots.map Binding.node ∧ (c.node new.node).Fresh)
      (Cluster.replace token source slot new)
      (fun _ c => ∃ slots', c.Consistent g slots' blocks)
      (fun _ c => ∃ slots', c.Consistent g slots' blocks) := by
  unfold Cluster.replace Cluster.replaceBy Cluster.rebind
  refine bind (Q := fun _ c => ∃ slots', c.Consistent g slots' blocks) ?_ fun _ => of_each ?_
  · refine cluster.bind fun c₀ => of_each ?_
    rintro _ ⟨rfl, hc₀, hlt, hnew, hfresh⟩
    refine bind (ofOutcome (Q := fun r c => r.2 = slots.set slot new ∧ c = c₀)
      (fun r c hc h => ⟨?_, hc⟩) fun _ c hc _ => ⟨slots, hc ▸ hc₀⟩) fun r => of_each ?_
    · rw [hc₀.slots] at h
      exact (Slots.rebind_eq_ok_iff.1 h).2
    rintro _ ⟨hr, rfl⟩
    simp only [hr]
    refine bind (modifyCluster (Q := fun _ c => ∃ slots', c.Consistent g slots' blocks) ?_)
      fun _ => pure fun _ hc => hc
    rintro _ rfl
    exact ⟨_, hc₀.rebind slot hlt hnew hfresh⟩
  · rintro c ⟨slots', hc⟩
    exact (repair_consistent hids source slot).conseq (fun _ h => h ▸ hc) (fun _ _ h => ⟨slots', h⟩)
      fun _ _ h => ⟨slots', h⟩

end Op.Triple

/-! ## Runs -/

/-- What a caller can do to a cluster. -/
inductive Command where
  | put (token : Token) (b : Block)
  | delete (token : Token) (id : Digest)
  | repair (token : Token) (source slot : ℕ)
  /-- Another node is set up, and a slot is bound to it. -/
  | replace (token : Token) (source slot : ℕ) (address : String) (n : Node)

namespace Command

/-- The cluster after a command, whether it failed or not. -/
def run (c : Cluster) : Command → Cluster
  | put token b => ((Cluster.put token b).run c).2.2
  | delete token id => ((Cluster.delete token id).run c).2.2
  | repair token source slot => ((Cluster.repair token source slot).run c).2.2
  | replace token source slot address n =>
    let (number, c) := c.addNode n
    ((Cluster.replace token source slot ⟨address, number⟩).run c).2.2

/-- The cluster after some commands, one after the other. -/
def runAll (cmds : List Command) (c : Cluster) : Cluster :=
  cmds.foldl run c

/-- A node that replaces another is fresh. -/
def Fresh : Command → Prop
  | replace _ _ _ _ n => n.Fresh
  | _ => True

/-- The blocks that are written. -/
def written (cmds : List Command) : Set Block :=
  {b | ∃ token, put token b ∈ cmds}

variable {c : Cluster} {cmd : Command} {cmds : List Command}

/-- Every command keeps a cluster consistent. -/
theorem run_consistent (hids : ∀ b ∈ blocks, ∀ b' ∈ blocks, b.id = b'.id → b = b')
    (h : c.Consistent g slots blocks) (hfresh : cmd.Fresh)
    (hput : ∀ token b, cmd = put token b → b ∈ blocks) :
    ∃ slots', (cmd.run c).Consistent g slots' blocks := by
  cases cmd with
  | put token b => exact ⟨slots, (Op.Triple.put_consistent (hput token b rfl)).run_cluster h⟩
  | delete token id => exact ⟨slots, (Op.Triple.delete_consistent id).run_cluster h⟩
  | repair token source slot =>
    exact ⟨slots, (Op.Triple.repair_consistent hids source slot).run_cluster h⟩
  | replace token source slot address n =>
    have hnew : (c.addNode n).2.node c.nodes.length = n := by
      simp [Cluster.node, Cluster.addNode]
    have hadded := h.addNode n
    refine (Op.Triple.replace_consistent hids source slot ⟨address, c.nodes.length⟩).run_cluster
      ⟨hadded, ?_, ?_, ?_⟩
    · simp
    · intro hmem
      obtain ⟨b, hb, hnode⟩ := List.mem_map.1 hmem
      have := h.bound.node_lt b (h.slots ▸ hb)
      exact absurd hnode (Nat.ne_of_lt this)
    · exact hnew.symm ▸ hfresh

/-- Every run keeps a cluster consistent. -/
theorem runAll_consistent (hids : ∀ b ∈ blocks, ∀ b' ∈ blocks, b.id = b'.id → b = b')
    (h : c.Consistent g slots blocks) (hfresh : ∀ cmd ∈ cmds, cmd.Fresh)
    (hput : ∀ token b, put token b ∈ cmds → b ∈ blocks) :
    ∃ slots', (runAll cmds c).Consistent g slots' blocks := by
  induction cmds generalizing c slots with
  | nil => exact ⟨slots, h⟩
  | cons cmd cmds ih =>
    obtain ⟨hcmd, hcmds⟩ := List.forall_mem_cons.1 hfresh
    obtain ⟨slots', h'⟩ := run_consistent hids h hcmd fun token b hb =>
      hput token b (hb ▸ List.mem_cons_self)
    exact ih h' hcmds fun token b hb => hput token b (List.mem_cons_of_mem _ hb)

end Command

/-- Slots bound to fresh nodes. -/
structure Cluster.Fresh (c : Cluster) : Prop where
  bound : c.Bound
  nodes : ∀ i n, c.slotNode? i = some n → n.Fresh

/-- **After every run the slots are consistent.** Whatever failed on the way, and whether or not it
took effect, each slot holds, under any key, nothing or its own part of the block that was written
with that key. Hence nothing but that block is read, and reading fails only for want of answers. -/
theorem consistent_of_run {c : Cluster} (hc : c.Fresh) {cmds : List Command}
    (hfresh : ∀ cmd ∈ cmds, cmd.Fresh)
    (hids : ∀ b ∈ Command.written cmds, ∀ b' ∈ Command.written cmds, b.id = b'.id → b = b') :
    let after := Command.runAll cmds c
    (after.Bound ∧ ∀ i n k, after.slotNode? i = some n → n.store.held k = (none, none) ∨
      ∃ b ∈ Command.written cmds, ∃ r, SizeRecord.ofSize b.size = .ok r ∧
        k = Text.utf8 b.id.key ∧
        n.store.held k = (some r.encode, (c.geometry.encode b.data)[i]?)) ∧
    ∀ b, (∀ b' ∈ Command.written cmds, b'.id = b.id → b' = b) → ∀ token,
      let read := ((Cluster.get token b.id).run after).1
      let size := ((Cluster.size token b.id).run after).1
      (read = .ok b ∨ ∃ e : Failure, e.Unanswered ∧ read = .error e) ∧
      ∀ n, size = .ok n → n = b.size := by
  intro after
  have hstart : c.Consistent c.geometry c.slots (Command.written cmds) :=
    ⟨rfl, rfl, hc.bound, fun i n hn => (hc.nodes i n hn).consistent i⟩
  obtain ⟨slots, hafter⟩ :=
    Command.runAll_consistent hids hstart hfresh fun token b hb => ⟨token, hb⟩
  refine ⟨⟨hafter.bound, fun i n k hn => (hafter.nodes i n hn).store k⟩, fun b hb token => ?_⟩
  intro read size
  refine ⟨?_, fun n hn => ?_⟩
  · cases ho : read with
    | ok b' =>
      obtain ⟨⟨hb', hid⟩, -⟩ := (Op.Triple.get_consistent hids b.id).run_ok hafter ho
      exact Or.inl (congrArg _ (hb b' hb' hid))
    | error e =>
      exact Or.inr ⟨e, ((Op.Triple.get_consistent hids b.id).run_error hafter ho).1, rfl⟩
  · obtain ⟨⟨b', hb', hid, hsize⟩, -⟩ := (Op.Triple.size_consistent b.id).run_ok hafter hn
    rw [← hsize, hb b' hb' hid]

/-- Three empty slots, of which the last loses the answers to every other call. -/
def forgetfulThird : Cluster where
  codec := .ofGeometry .twoAndOne 0
  policy := .bestEffort
  limit := none
  slots := [⟨"", 0⟩, ⟨"", 1⟩, ⟨"", 2⟩]
  nodes := [.ofStore "" (.memory (.empty 0)), .ofStore "" (.memory (.empty 0)),
    ⟨"", .memory (.empty 0), fun t _ => ⟨0, if t % 2 = 0 then .lose (.transport "") else .pass⟩, 0⟩]
  journal := []

/-- A block that is written, removed, written again and repaired is read, or nothing is. -/
theorem consistent_of_forgetfulThird :
    let b : Block := ⟨.blake3, [1, 2, 3]⟩
    let cmds : List Command := [.put .never b, .delete (.after 5) b.id, .put .never b,
      .replace .never 0 1 "" (.ofStore "" (.memory (.empty 9))), .repair .canceled 1 0]
    let read := ((Cluster.get .never b.id).run (Command.runAll cmds forgetfulThird)).1
    forgetfulThird.Fresh ∧ (read = .ok b ∨ ∃ e : Failure, e.Unanswered ∧ read = .error e) := by
  intro b cmds read
  have hcalm (capacity : ℕ) : (Node.ofStore "" (.memory (.empty capacity))).Fresh :=
    ⟨fun _ _ _ => Effect.noConfusion, fun _ => rfl⟩
  have hfresh : forgetfulThird.Fresh := by
    refine ⟨⟨rfl, by decide, by decide⟩, fun i n hn => ?_⟩
    match i with
    | 0 | 1 =>
      obtain rfl := Option.some.inj hn
      exact hcalm 0
    | 2 =>
      obtain rfl := Option.some.inj hn
      refine ⟨fun t m b => ?_, fun _ => rfl⟩
      change (if t % 2 = 0 then Effect.lose (.transport "") else .pass) ≠ .forge b
      split <;> exact Effect.noConfusion
    | i + 3 => simp [Cluster.slotNode?, forgetfulThird] at hn
  have hwritten : ∀ b' ∈ Command.written cmds, b' = b := by
    rintro b' ⟨token, hb'⟩
    have h : token = .never ∧ b' = b := by simpa [cmds] using hb'
    exact h.2
  have hcmds : ∀ cmd ∈ cmds, cmd.Fresh := by
    simp [cmds, Command.Fresh, hcalm]
  refine ⟨hfresh, ?_⟩
  have hrun := consistent_of_run hfresh hcmds fun x hx y hy _ =>
    (hwritten x hx).trans (hwritten y hy).symm
  exact (hrun.2 b (fun b' hb' _ => hwritten b' hb') .never).1

end ErasureVault
